import ScriptFrontend.Proofs.Lexical.Grammar
import ScriptFrontend.Tree.Basic

/-!
# Writing programs

The lexemes of a tree with no more parentheses than the operators need. Operators bind from weak to
strong: `||`, `&&`, comparisons, `+` and `-`, `*` and `/`, signs. A left operand is put in parentheses
if its operator is weaker than the one it belongs to, a right operand also if it is equally strong,
and the operand of a sign if it is an operation with two operands. Alternatives are always written as
blocks.
-/
namespace ScriptFrontend

/-- The strength of the operators of a level; no level stands for signs. -/
def Level.strength : Option Level → Nat
  | some disjunction => 0
  | some conjunction => 1
  | some comparison => 2
  | some term => 3
  | some factor => 4
  | none => 5

def Literal.lexeme : Literal → Lexeme
  | integer value => .integer value
  | decimal value => .decimal value
  | text content => .text content

namespace Expr

/-- The level of the outermost operator, if that takes two operands. -/
def rank : Expr → Option Level
  | binary op _ _ => some op.level
  | _ => none

def strength (e : Expr) : Nat := Level.strength e.rank

end Expr

def grouped (needed : Bool) (ls : List Lexeme) : List Lexeme :=
  if needed then .symbol .openParen :: (ls ++ [.symbol .closeParen]) else ls

mutual

def Expr.written : Expr → List Lexeme
  | .literal value => [value.lexeme]
  | .identifier word => [.name word]
  | .binary op left right =>
    grouped (left.strength < Level.strength op.level) left.written ++
      .symbol op.symbol :: grouped (right.strength ≤ Level.strength op.level) right.written
  | .unary op operand =>
    .symbol op.symbol :: grouped (operand.strength < Level.strength none) operand.written
  | .call callee es =>
    .name callee :: .symbol .openParen :: (writtenArguments es ++ [.symbol .closeParen])

def writtenArguments : List Expr → List Lexeme
  | [] => []
  | [e] => e.written
  | e :: es => e.written ++ .symbol .comma :: writtenArguments es

end

def writtenNames : List String → List Lexeme
  | [] => []
  | [word] => [.name word]
  | word :: words => .name word :: .symbol .comma :: writtenNames words

def braced (ls : List Lexeme) : List Lexeme :=
  .symbol .openBrace :: (ls ++ [.symbol .closeBrace])

mutual

def Stmt.written : Stmt → List Lexeme
  | .declaration word e =>
    .symbol .kwVar :: .name word :: .symbol .assign :: (e.written ++ [.symbol .semicolon])
  | .assignment word e => .name word :: .symbol .assign :: (e.written ++ [.symbol .semicolon])
  | .block body => braced (writtenStatements body)
  | .ifThen e consequent =>
    .symbol .kwIf :: .symbol .openParen :: (e.written ++ .symbol .closeParen ::
      braced (writtenStatements consequent))
  | .ifThenElse e consequent alternative =>
    .symbol .kwIf :: .symbol .openParen :: (e.written ++ .symbol .closeParen ::
      (braced (writtenStatements consequent) ++ .symbol .kwElse ::
        braced (writtenStatements alternative)))
  | .whileLoop e body =>
    .symbol .kwWhile :: .symbol .openParen :: (e.written ++ .symbol .closeParen ::
      braced (writtenStatements body))
  | .function word names body =>
    .symbol .kwDef :: .name word :: .symbol .openParen :: (writtenNames names ++
      .symbol .closeParen :: braced (writtenStatements body))
  | .returnValue e => .symbol .kwReturn :: (e.written ++ [.symbol .semicolon])
  | .expression e => e.written ++ [.symbol .semicolon]

def writtenStatements : List Stmt → List Lexeme
  | [] => []
  | s :: ss => s.written ++ writtenStatements ss

end

/-! What can be written -/

def IsName (word : String) : Prop :=
  ∃ c tail, word.toList = c :: tail ∧ Scanning.isNameStart c = true ∧
    (∀ d ∈ tail, Scanning.isNamePart d = true) ∧ ∀ k ∈ Symbol.keywords, k.spelling ≠ word

def IsDecimal (value : Float) : Prop :=
  ∃ whole fraction, whole ≠ [] ∧ (∀ c ∈ whole, Decimal.isDigit c = true) ∧
    (∀ c ∈ fraction, Decimal.isDigit c = true) ∧ Decimal.floatOfDigits whole fraction = value

def Literal.Writable : Literal → Prop
  | integer value => 0 ≤ value
  | decimal value => IsDecimal value
  | text content => '"' ∉ content.toList

mutual

def Expr.Writable : Expr → Prop
  | .literal value => value.Writable
  | .identifier word => IsName word
  | .binary _ left right => left.Writable ∧ right.Writable
  | .unary _ operand => operand.Writable
  | .call callee es => IsName callee ∧ WritableArguments es

def WritableArguments : List Expr → Prop
  | [] => True
  | e :: es => e.Writable ∧ WritableArguments es

end

mutual

/-- Blocks that stand alone are never read, so they cannot be written. -/
def Stmt.Writable : Stmt → Prop
  | .declaration word e | .assignment word e => IsName word ∧ e.Writable
  | .block _ => False
  | .ifThen e body | .whileLoop e body => e.Writable ∧ WritableStatements body
  | .ifThenElse e consequent alternative =>
    e.Writable ∧ WritableStatements consequent ∧ WritableStatements alternative
  | .function word names body =>
    IsName word ∧ (∀ name ∈ names, IsName name) ∧ WritableStatements body
  | .returnValue e | .expression e => e.Writable

def WritableStatements : List Stmt → Prop
  | [] => True
  | s :: ss => s.Writable ∧ WritableStatements ss

end

end ScriptFrontend
