import ScriptFrontend.Token.Lexeme

/-!
Faults of a program text: what was missing or out of place, and what had not been read when it was
noticed. The place of a fault in the text is looked up from the number of unread lexemes, so reading
never depends on places.
-/
namespace ScriptFrontend.Parse

inductive Conditional where
  | ifWord | whileWord
deriving DecidableEq

def Conditional.word : Conditional → String
  | ifWord => Symbol.kwIf.spelling
  | whileWord => Symbol.kwWhile.spelling

/-- The places of the grammar that only one symbol can take. -/
inductive SymbolSlot where
  | assignment
  | endOfDeclaration | endOfAssignment | endOfReturn | endOfExpression
  | openCondition (c : Conditional) | closeCondition (c : Conditional)
  | openParameters | closeParameters
  | closeArguments | closeGroup
  | openBlock | closeBlock
deriving DecidableEq

namespace SymbolSlot

def symbol : SymbolSlot → Symbol
  | assignment => .assign
  | endOfDeclaration | endOfAssignment | endOfReturn | endOfExpression => .semicolon
  | openCondition _ | openParameters => .openParen
  | closeCondition _ | closeParameters | closeArguments | closeGroup => .closeParen
  | openBlock => .openBrace
  | closeBlock => .closeBrace

def place : SymbolSlot → String
  | assignment => "after variable name"
  | endOfDeclaration => "after variable declaration"
  | endOfAssignment => "after assignment"
  | endOfReturn => "after return value"
  | endOfExpression => "after expression"
  | openCondition c => s!"after '{c.word}'"
  | closeCondition c => s!"after {c.word} condition"
  | openParameters => "after function name"
  | closeParameters => "after parameters"
  | closeArguments => "after arguments"
  | closeGroup => "after expression"
  | openBlock => "to start block"
  | closeBlock => "to close block"

def demand (s : SymbolSlot) : String := s!"Expected '{s.symbol.spelling}' {s.place}"

end SymbolSlot

inductive NameSlot where
  | variableName | functionName | firstParameter | nextParameter
deriving DecidableEq

def NameSlot.demand : NameSlot → String
  | variableName => "Expected variable name after 'var'"
  | functionName => "Expected function name after 'def'"
  | firstParameter => "Expected parameter name"
  | nextParameter => "Expected parameter name after ','"

inductive FaultCause where
  | missingSymbol (slot : SymbolSlot)
  | missingName (slot : NameSlot)
  | noOperand
  | noBlock
  | noValue
  | strayElse
deriving DecidableEq

def FaultCause.message (found : TokenKind) : FaultCause → String
  | missingSymbol slot => s!"{slot.demand}, found {TokenKind.describe found}"
  | missingName slot => s!"{slot.demand}, found {TokenKind.describe found}"
  | noOperand => s!"Unexpected token in expression: {TokenKind.describe found}"
  | noBlock => SymbolSlot.openBlock.demand
  | noValue => "Missing expression in assignment"
  | strayElse => "Unexpected 'else' without matching 'if'"

/-- `rest` starts with the offending lexeme and is empty at the end of the input. -/
structure Fault where
  cause : FaultCause
  rest : List Lexeme

def Fault.message (f : Fault) : String := f.cause.message f.rest.head?

end ScriptFrontend.Parse
