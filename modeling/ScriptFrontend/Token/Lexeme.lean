import ScriptFrontend.Token.Symbol
import ScriptFrontend.Decimal.Notation

/-!
Lexemes: the words of a program, each with the value it carries. Where a kind of token is asked
for, no lexeme at all stands for the end of the input.
-/
namespace ScriptFrontend

inductive Lexeme where
  | symbol (s : Symbol)
  | name (word : String)
  | integer (value : Int)
  | decimal (value : Float)
  | text (content : String)

namespace Lexeme

def describe : Lexeme → String
  | symbol s => s!"'{s.spelling}'"
  | name word => s!"identifier '{word}'"
  | integer value => s!"int literal {value}"
  | decimal value => s!"float literal {Decimal.text value}"
  | text content => s!"string literal \"{content}\""

def sameKind : Lexeme → Lexeme → Bool
  | symbol a, symbol b => a = b
  | name _, name _ => true
  | integer _, integer _ => true
  | decimal _, decimal _ => true
  | text _, text _ => true
  | _, _ => false

/-- Of one kind and value; doubles are compared as numbers, so one that is not a number differs
from itself. -/
def same : Lexeme → Lexeme → Bool
  | symbol a, symbol b => a = b
  | name a, name b => a = b
  | integer a, integer b => a = b
  | decimal a, decimal b => a == b
  | text a, text b => a = b
  | _, _ => false

def ofWord (word : String) : Lexeme :=
  match Symbol.ofWord? word with
  | some s => symbol s
  | none => name word

end Lexeme

abbrev TokenKind := Option Lexeme

namespace TokenKind

def describe : TokenKind → String
  | some l => l.describe
  | none => "end of input"

def sameKind : TokenKind → TokenKind → Bool
  | some a, some b => a.sameKind b
  | none, none => true
  | _, _ => false

def same : TokenKind → TokenKind → Bool
  | some a, some b => a.same b
  | none, none => true
  | _, _ => false

end TokenKind
end ScriptFrontend
