import ScriptFrontend.Token.Symbol

/-!
Operators of expressions, and how tightly the binary ones bind.
-/
namespace ScriptFrontend

inductive BinaryOp where
  | add | sub | mul | div
  | eq | ne | lt | gt | le | ge
  | both | either
deriving DecidableEq

inductive Level where
  | factor | term | comparison | conjunction | disjunction
deriving DecidableEq

def Level.all : List Level := [.factor, .term, .comparison, .conjunction, .disjunction]

namespace BinaryOp

def symbol : BinaryOp → Symbol
  | add => .plus
  | sub => .minus
  | mul => .star
  | div => .slash
  | eq => .equal
  | ne => .notEqual
  | lt => .less
  | gt => .greater
  | le => .lessEqual
  | ge => .greaterEqual
  | both => .both
  | either => .either

def spelling (op : BinaryOp) : String := op.symbol.spelling

def level : BinaryOp → Level
  | mul | div => .factor
  | add | sub => .term
  | eq | ne | lt | gt | le | ge => .comparison
  | both => .conjunction
  | either => .disjunction

def all : List BinaryOp := [add, sub, mul, div, eq, ne, lt, gt, le, ge, both, either]

def ofSymbol? (s : Symbol) : Option BinaryOp :=
  all.find? (·.symbol = s)

def ofSpelling? (s : String) : Option BinaryOp :=
  all.find? (·.spelling = s)

theorem ofSymbol?_symbol (op : BinaryOp) : ofSymbol? op.symbol = some op := by
  cases op <;> decide

theorem symbol_of_ofSymbol? {s : Symbol} {op : BinaryOp} (h : ofSymbol? s = some op) :
    op.symbol = s := by
  simpa using List.find?_some h

end BinaryOp

inductive UnaryOp where
  | plus | negate
deriving DecidableEq

namespace UnaryOp

def symbol : UnaryOp → Symbol
  | plus => .plus
  | negate => .minus

def spelling (op : UnaryOp) : String := op.symbol.spelling

def ofSpelling? (s : String) : Option UnaryOp :=
  [plus, negate].find? (·.spelling = s)

end UnaryOp
end ScriptFrontend
