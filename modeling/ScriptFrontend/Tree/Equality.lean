import ScriptFrontend.Tree.Basic

/-!
Equality of trees by structure. Doubles are compared as numbers, so a tree that holds a double that
is not a number differs from itself, and the two zeros are equal.
-/
namespace ScriptFrontend

def Literal.same : Literal → Literal → Bool
  | .integer a, .integer b => a = b
  | .decimal a, .decimal b => a == b
  | .text a, .text b => a = b
  | _, _ => false

mutual

def Expr.same : Expr → Expr → Bool
  | .literal a, .literal b => a.same b
  | .identifier a, .identifier b => a = b
  | .binary op a b, .binary op' a' b' => op = op' && a.same a' && b.same b'
  | .unary op a, .unary op' a' => op = op' && a.same a'
  | .call f as, .call g bs => f = g && Expr.sameAll as bs
  | _, _ => false

def Expr.sameAll : List Expr → List Expr → Bool
  | [], [] => true
  | a :: as, b :: bs => a.same b && Expr.sameAll as bs
  | _, _ => false

end

mutual

def Stmt.same : Stmt → Stmt → Bool
  | .declaration x e, .declaration y f => x = y && e.same f
  | .assignment x e, .assignment y f => x = y && e.same f
  | .block as, .block bs => Stmt.sameAll as bs
  | .ifThen e as, .ifThen f bs => e.same f && Stmt.sameAll as bs
  | .ifThenElse e as cs, .ifThenElse f bs ds => e.same f && Stmt.sameAll as bs && Stmt.sameAll cs ds
  | .whileLoop e as, .whileLoop f bs => e.same f && Stmt.sameAll as bs
  | .function x ps as, .function y qs bs => x = y && ps = qs && Stmt.sameAll as bs
  | .returnValue e, .returnValue f => e.same f
  | .expression e, .expression f => e.same f
  | _, _ => false

def Stmt.sameAll : List Stmt → List Stmt → Bool
  | [], [] => true
  | a :: as, b :: bs => a.same b && Stmt.sameAll as bs
  | _, _ => false

end

/-- A body is never equal to the statement that wraps it: nodes are compared within their family. -/
def Node.same : Node → Node → Bool
  | .program p, .program q => Stmt.sameAll p.statements q.statements
  | .block as, .block bs => Stmt.sameAll as bs
  | .stmt a, .stmt b => a.same b
  | .expr a, .expr b => a.same b
  | _, _ => false

end ScriptFrontend
