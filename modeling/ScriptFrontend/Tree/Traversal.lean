import ScriptFrontend.Tree.Basic

/-!
The nodes of a tree in the order in which a reader meets them: a node before its children, a
condition before the bodies, a left operand before a right one, lists from front to back. A body is
a node of its own, whether it belongs to a statement or is one.
-/
namespace ScriptFrontend

inductive NodeKind where
  | assignment | binaryOp | block | callExpression | expressionStatement | functionDeclaration
  | identifier | ifStatement | literal | program | returnStatement | unaryOp | varDeclaration
  | whileStatement
deriving DecidableEq

namespace NodeKind

def label : NodeKind → String
  | assignment => "Assignment"
  | binaryOp => "BinaryOp"
  | block => "Block"
  | callExpression => "CallExpression"
  | expressionStatement => "ExpressionStatement"
  | functionDeclaration => "FunctionDeclaration"
  | identifier => "Identifier"
  | ifStatement => "IfStatement"
  | literal => "Literal"
  | program => "Program"
  | returnStatement => "ReturnStatement"
  | unaryOp => "UnaryOp"
  | varDeclaration => "VarDeclaration"
  | whileStatement => "WhileStatement"

def all : List NodeKind :=
  [assignment, binaryOp, block, callExpression, expressionStatement, functionDeclaration,
   identifier, ifStatement, literal, program, returnStatement, unaryOp, varDeclaration,
   whileStatement]

def ofLabel? (s : String) : Option NodeKind :=
  all.find? (·.label = s)

def rank (k : NodeKind) : Nat := all.idxOf k

end NodeKind

inductive Visit where
  | program (statements : Nat)
  | declaration (name : String)
  | assignment (name : String)
  | conditional (hasAlternative : Bool)
  | whileLoop
  | function (name : String) (parameters : List String)
  | returnValue
  | expression
  | block (statements : Nat)
  | binary (op : BinaryOp)
  | unary (op : UnaryOp)
  | call (callee : String) (arguments : Nat)
  | identifier (name : String)
  | literal (value : Literal)

def Visit.kind : Visit → NodeKind
  | program _ => .program
  | declaration _ => .varDeclaration
  | assignment _ => .assignment
  | conditional _ => .ifStatement
  | whileLoop => .whileStatement
  | function _ _ => .functionDeclaration
  | returnValue => .returnStatement
  | expression => .expressionStatement
  | block _ => .block
  | binary _ => .binaryOp
  | unary _ => .unaryOp
  | call _ _ => .callExpression
  | identifier _ => .identifier
  | literal _ => .literal

mutual

def Expr.visits : Expr → List Visit
  | .literal value => [.literal value]
  | .identifier name => [.identifier name]
  | .binary op left right => .binary op :: (left.visits ++ right.visits)
  | .unary op operand => .unary op :: operand.visits
  | .call callee arguments => .call callee arguments.length :: Expr.visitsAll arguments

def Expr.visitsAll : List Expr → List Visit
  | [] => []
  | e :: es => e.visits ++ Expr.visitsAll es

end

mutual

def Stmt.visits : Stmt → List Visit
  | .declaration name value => .declaration name :: value.visits
  | .assignment name value => .assignment name :: value.visits
  | .block body => .block body.length :: Stmt.visitsAll body
  | .ifThen condition consequent =>
    .conditional false :: (condition.visits ++ .block consequent.length :: Stmt.visitsAll consequent)
  | .ifThenElse condition consequent alternative =>
    .conditional true :: (condition.visits ++ .block consequent.length :: (Stmt.visitsAll consequent ++
      .block alternative.length :: Stmt.visitsAll alternative))
  | .whileLoop condition body =>
    .whileLoop :: (condition.visits ++ .block body.length :: Stmt.visitsAll body)
  | .function name parameters body =>
    .function name parameters :: .block body.length :: Stmt.visitsAll body
  | .returnValue value => .returnValue :: value.visits
  | .expression value => .expression :: value.visits

def Stmt.visitsAll : List Stmt → List Visit
  | [] => []
  | s :: ss => s.visits ++ Stmt.visitsAll ss

end

def Program.visits (p : Program) : List Visit :=
  .program p.statements.length :: Stmt.visitsAll p.statements

def Node.visits : Node → List Visit
  | .program p => p.visits
  | .block body => .block body.length :: Stmt.visitsAll body
  | .stmt s => s.visits
  | .expr e => e.visits

end ScriptFrontend
