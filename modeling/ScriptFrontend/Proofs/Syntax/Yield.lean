import ScriptFrontend.Proofs.Syntax.Fusion
import ScriptFrontend.Proofs.Writing.Writer
import ScriptFrontend.Token.Basic

/-!
# Yields

The yield of a tree lists its names, literals and operators in the order of the text; the yield of a
row of lexemes lists those among its lexemes. Joining operands along a level changes the shape of an
operation but not its yield, and a phrase yields exactly what its tree yields.
-/
namespace ScriptFrontend

/-- Names, literals and operators. Keywords, punctuation and `=` only give a program its shape. -/
def Lexeme.isContent : Lexeme → Bool
  | .symbol s => (BinaryOp.ofSymbol? s).isSome
  | _ => true

def Lexeme.yield (ls : List Lexeme) : List Lexeme := ls.filter isContent

mutual

def Expr.yield : Expr → List Lexeme
  | .literal value => [value.lexeme]
  | .identifier word => [.name word]
  | .binary op left right => left.yield ++ .symbol op.symbol :: right.yield
  | .unary op operand => .symbol op.symbol :: operand.yield
  | .call callee es => .name callee :: Expr.yieldAll es

def Expr.yieldAll : List Expr → List Lexeme
  | [] => []
  | e :: es => e.yield ++ Expr.yieldAll es

end

def yieldNames (words : List String) : List Lexeme := words.map .name

mutual

def Stmt.yield : Stmt → List Lexeme
  | .declaration word e | .assignment word e => .name word :: e.yield
  | .block body => Stmt.yieldAll body
  | .ifThen e consequent => e.yield ++ Stmt.yieldAll consequent
  | .ifThenElse e consequent alternative =>
    e.yield ++ (Stmt.yieldAll consequent ++ Stmt.yieldAll alternative)
  | .whileLoop e body => e.yield ++ Stmt.yieldAll body
  | .function word words body => .name word :: (yieldNames words ++ Stmt.yieldAll body)
  | .returnValue e | .expression e => e.yield

def Stmt.yieldAll : List Stmt → List Lexeme
  | [] => []
  | s :: ss => s.yield ++ Stmt.yieldAll ss

end

def Program.yield (p : Program) : List Lexeme := Stmt.yieldAll p.statements

section Lexemes
variable {l : Lexeme} {ls a b : List Lexeme}

@[simp] theorem Lexeme.yield_nil : yield [] = [] := rfl

@[simp] theorem Lexeme.yield_append : yield (a ++ b) = yield a ++ yield b := List.filter_append ..

theorem Lexeme.yield_cons_content (content : l.isContent = true) : yield (l :: ls) = l :: yield ls :=
  List.filter_cons_of_pos content

theorem Lexeme.yield_shape {s : Symbol} (shape : BinaryOp.ofSymbol? s = none) :
    yield (.symbol s :: ls) = yield ls :=
  List.filter_cons_of_neg (by simp [isContent, shape])

@[simp] theorem Lexeme.yield_name (word : String) : yield (.name word :: ls) = .name word :: yield ls :=
  yield_cons_content rfl

@[simp] theorem Lexeme.yield_literal (value : Literal) :
    yield (value.lexeme :: ls) = value.lexeme :: yield ls := by
  cases value <;> exact yield_cons_content rfl

theorem Lexeme.yield_value (value : Literal) : yield [value.lexeme] = [value.lexeme] :=
  yield_literal value

@[simp] theorem Lexeme.yield_operator (op : BinaryOp) :
    yield (.symbol op.symbol :: ls) = .symbol op.symbol :: yield ls := by
  cases op <;> exact yield_cons_content rfl

@[simp] theorem Lexeme.yield_sign (op : UnaryOp) :
    yield (.symbol op.symbol :: ls) = .symbol op.symbol :: yield ls := by
  cases op <;> exact yield_cons_content rfl

end Lexemes

namespace Parse

/-! Joining operands keeps the yield -/

def chainYield (others : List (BinaryOp × Expr)) : List Lexeme :=
  others.flatMap fun (op, e) => .symbol op.symbol :: e.yield

theorem fuse_yield (l : Level) (f : Expr) (xs : List (BinaryOp × Expr)) :
    (fuse l f xs).1.yield ++ chainYield (fuse l f xs).2 = f.yield ++ chainYield xs := by
  induction xs generalizing f with
  | nil => rfl
  | cons x xs ih =>
    obtain ⟨op, e⟩ := x
    by_cases same : op.level = l
    · rw [fuse_cons_same same, ih]
      simp [chainYield, Expr.yield]
    · have behind := ih e
      simp only [chainYield] at behind
      simp [fuse_cons_other same, chainYield, behind]

theorem fuseTo_yield (r : Option Level) (f : Expr) (xs : List (BinaryOp × Expr)) :
    (fuseTo r f xs).1.yield ++ chainYield (fuseTo r f xs).2 = f.yield ++ chainYield xs := by
  induction r using Level.ascend with
  | primary => rfl
  | level l ih => rw [fuseTo_some, fuse_yield, ih]

theorem assemble_yield (first : Expr) (others : List (BinaryOp × Expr)) :
    (assemble first others).yield = first.yield ++ chainYield others := by
  have whole := fuseTo_yield (some .disjunction) first others
  rw [fuseTo_disjunction_operators] at whole
  simpa [assemble_eq_fuseTo, chainYield] using whole

end Parse

/-! Phrases -/

@[simp] def Nonterminal.yield : (n : Nonterminal) → n.Tree → List Lexeme
  | .ranked _, e => e.yield
  | .arguments, es | .argumentList, es => Expr.yieldAll es
  | .names, words | .nameList, words => yieldNames words
  | .statement, s | .conditional, s => s.yield
  | .block, ss | .program, ss => Stmt.yieldAll ss

theorem Phrase.yield_eq {n : Nonterminal} {ls : List Lexeme} {t : n.Tree} (h : Phrase n ls t) :
    n.yield t = Lexeme.yield ls := by
  induction h with
  | integer value => exact (Lexeme.yield_value (.integer value)).symm
  | decimal value => exact (Lexeme.yield_value (.decimal value)).symm
  | text content => exact (Lexeme.yield_value (.text content)).symm
  | identifier word => simp [Expr.yield]
  | call callee _ es => simp (disch := decide) [Expr.yield, Lexeme.yield_shape, ← es]
  | group _ inner => simp (disch := decide) [Lexeme.yield_shape, ← inner]
  | sign op _ operand => simp [Expr.yield, ← operand]
  | operand l _ tighter => exact tighter
  | operation op _ _ left right => simp [Expr.yield, ← left, ← right]
  | lastArgument _ e => simp [Expr.yieldAll, ← e]
  | moreArguments _ _ e es => simp (disch := decide) [Expr.yieldAll, Lexeme.yield_shape, ← e, ← es]
  | noArguments => rfl
  | someArguments _ es => exact es
  | lastName word => simp [yieldNames]
  | moreNames word _ words => simp (disch := decide) [yieldNames, Lexeme.yield_shape, ← words]
  | noNames => rfl
  | someNames _ words => exact words
  | declaration word _ e => simp (disch := decide) [Stmt.yield, Lexeme.yield_shape, ← e]
  | assignment word _ e => simp (disch := decide) [Stmt.yield, Lexeme.yield_shape, ← e]
  | choice _ s => exact s
  | whileLoop _ _ e body => simp (disch := decide) [Stmt.yield, Lexeme.yield_shape, ← e, ← body]
  | function word _ _ words body =>
    simp (disch := decide) [Stmt.yield, Lexeme.yield_shape, ← words, ← body]
  | returnValue _ e => simp (disch := decide) [Stmt.yield, Lexeme.yield_shape, ← e]
  | evaluation _ e => simp (disch := decide) [Stmt.yield, Lexeme.yield_shape, ← e]
  | ifThen _ _ e consequent =>
    simp (disch := decide) [Stmt.yield, Lexeme.yield_shape, ← e, ← consequent]
  | ifThenElse _ _ _ e consequent alternative =>
    simp (disch := decide) [Stmt.yield, Lexeme.yield_shape, ← e, ← consequent, ← alternative]
  | elseIf _ _ _ e consequent inner =>
    simp (disch := decide) [Stmt.yield, Stmt.yieldAll, Lexeme.yield_shape, ← e, ← consequent, ← inner]
  | block _ ss => simp (disch := decide) [Lexeme.yield_shape, ← ss]
  | finished => rfl
  | statement _ _ s ss => simp [Stmt.yieldAll, ← s, ← ss]

end ScriptFrontend
