import ScriptFrontend.Decimal.Notation
import ScriptFrontend.Tree.Operator

/-!
The tree of a program. A body is a list of statements; parentheses leave no node, and an `else if`
is an alternative that holds one conditional.
-/
namespace ScriptFrontend

inductive Literal where
  | integer (value : Int)
  | decimal (value : Float)
  | text (content : String)

namespace Literal

def typeName : Literal → String
  | integer _ => "Integer"
  | decimal _ => "Float"
  | text _ => "String"

def render : Literal → String
  | integer value => toString value
  | decimal value => Decimal.text value
  | text content => content

end Literal

inductive Expr where
  | literal (value : Literal)
  | identifier (name : String)
  | binary (op : BinaryOp) (left right : Expr)
  | unary (op : UnaryOp) (operand : Expr)
  | call (callee : String) (arguments : List Expr)

/-- Stands for an expression that could not be read. -/
def Expr.placeholder : Expr := .literal (.integer 0)

inductive Stmt where
  | declaration (name : String) (value : Expr)
  | assignment (name : String) (value : Expr)
  | block (body : List Stmt)
  | ifThen (condition : Expr) (consequent : List Stmt)
  | ifThenElse (condition : Expr) (consequent alternative : List Stmt)
  | whileLoop (condition : Expr) (body : List Stmt)
  | function (name : String) (parameters : List String) (body : List Stmt)
  | returnValue (value : Expr)
  | expression (value : Expr)

structure Program where
  statements : List Stmt

inductive Node where
  | program (p : Program)
  | block (body : List Stmt)
  | stmt (s : Stmt)
  | expr (e : Expr)

end ScriptFrontend
