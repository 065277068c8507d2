import ScriptFrontend.Text.Columns
import ScriptFrontend.Tree.Traversal

/-!
The outline of a tree: one row per node, indented below its parent. Where a node has several
children in different roles, a row with the name of the role stands between, and the child is
indented once more.
-/
namespace ScriptFrontend

/-- The role of a child. Parameters are names and stand in the row itself. -/
inductive OutlineLabel where
  | value | condition | consequent | alternative | body | left | right | arguments
  | parameters (names : List String)
deriving DecidableEq

namespace OutlineLabel

def word : OutlineLabel → String
  | value => "Value"
  | condition => "Condition"
  | consequent => "Then"
  | alternative => "Else"
  | body => "Body"
  | left => "Left"
  | right => "Right"
  | arguments => "Arguments"
  | parameters _ => "Parameters"

def text : OutlineLabel → String
  | parameters names => "Parameters: " ++ ", ".intercalate names
  | l => l.word ++ ":"

end OutlineLabel

def Visit.heading : Visit → String
  | declaration name => "VarDeclaration: " ++ name
  | assignment name => "Assignment: " ++ name
  | function name _ => "FunctionDeclaration: " ++ name
  | binary op => "BinaryOp: " ++ op.spelling
  | unary op => "UnaryOp: " ++ op.spelling
  | call callee _ => "CallExpression: " ++ callee
  | identifier name => "Identifier: " ++ name
  | literal value => value.typeName ++ "Literal: " ++ value.render
  | v => v.kind.label ++ ":"

inductive OutlineEntry where
  | label (l : OutlineLabel)
  | header (v : Visit)

def OutlineEntry.text : OutlineEntry → String
  | label l => l.text
  | header v => v.heading

structure OutlineRow where
  depth : Nat
  entry : OutlineEntry

def OutlineRow.render (r : OutlineRow) : String :=
  Text.blanks (2 * r.depth) ++ r.entry.text ++ "\n"

mutual

def Expr.outline (depth : Nat) : Expr → List OutlineRow
  | .literal value => [⟨depth, .header (.literal value)⟩]
  | .identifier name => [⟨depth, .header (.identifier name)⟩]
  | .binary op left right =>
    ⟨depth, .header (.binary op)⟩ ::
      ⟨depth + 1, .label .left⟩ :: (left.outline (depth + 2) ++
      ⟨depth + 1, .label .right⟩ :: right.outline (depth + 2))
  | .unary op operand => ⟨depth, .header (.unary op)⟩ :: operand.outline (depth + 1)
  | .call callee arguments =>
    ⟨depth, .header (.call callee arguments.length)⟩ ::
      if arguments.isEmpty then []
      else ⟨depth + 1, .label .arguments⟩ :: Expr.outlineAll (depth + 2) arguments

def Expr.outlineAll (depth : Nat) : List Expr → List OutlineRow
  | [] => []
  | e :: es => e.outline depth ++ Expr.outlineAll depth es

end

def Expr.outlineAs (l : OutlineLabel) (depth : Nat) (e : Expr) : List OutlineRow :=
  ⟨depth + 1, .label l⟩ :: e.outline (depth + 2)

mutual

def Stmt.outline (depth : Nat) : Stmt → List OutlineRow
  | .declaration name value =>
    ⟨depth, .header (.declaration name)⟩ :: value.outlineAs .value depth
  | .assignment name value =>
    ⟨depth, .header (.assignment name)⟩ :: value.outlineAs .value depth
  | .block body => ⟨depth, .header (.block body.length)⟩ :: Stmt.outlineAll (depth + 1) body
  | .ifThen condition consequent =>
    ⟨depth, .header (.conditional false)⟩ :: (condition.outlineAs .condition depth ++
      ⟨depth + 1, .label .consequent⟩ ::
      ⟨depth + 2, .header (.block consequent.length)⟩ :: Stmt.outlineAll (depth + 3) consequent)
  | .ifThenElse condition consequent alternative =>
    ⟨depth, .header (.conditional true)⟩ :: (condition.outlineAs .condition depth ++
      ⟨depth + 1, .label .consequent⟩ ::
      ⟨depth + 2, .header (.block consequent.length)⟩ :: (Stmt.outlineAll (depth + 3) consequent ++
      ⟨depth + 1, .label .alternative⟩ ::
      ⟨depth + 2, .header (.block alternative.length)⟩ :: Stmt.outlineAll (depth + 3) alternative))
  | .whileLoop condition body =>
    ⟨depth, .header .whileLoop⟩ :: (condition.outlineAs .condition depth ++
      ⟨depth + 1, .label .body⟩ ::
      ⟨depth + 2, .header (.block body.length)⟩ :: Stmt.outlineAll (depth + 3) body)
  | .function name parameters body =>
    ⟨depth, .header (.function name parameters)⟩ ::
      ⟨depth + 1, .label (.parameters parameters)⟩ ::
      ⟨depth + 1, .label .body⟩ ::
      ⟨depth + 2, .header (.block body.length)⟩ :: Stmt.outlineAll (depth + 3) body
  | .returnValue value => ⟨depth, .header .returnValue⟩ :: value.outline (depth + 1)
  | .expression value => ⟨depth, .header .expression⟩ :: value.outline (depth + 1)

def Stmt.outlineAll (depth : Nat) : List Stmt → List OutlineRow
  | [] => []
  | s :: ss => s.outline depth ++ Stmt.outlineAll depth ss

end

def Program.outline (depth : Nat) (p : Program) : List OutlineRow :=
  ⟨depth, .header (.program p.statements.length)⟩ :: Stmt.outlineAll (depth + 1) p.statements

def Node.outline (depth : Nat) : Node → List OutlineRow
  | .program p => p.outline depth
  | .block body => ⟨depth, .header (.block body.length)⟩ :: Stmt.outlineAll (depth + 1) body
  | .stmt s => s.outline depth
  | .expr e => e.outline depth

def renderOutline (rows : List OutlineRow) : String :=
  String.join (rows.map OutlineRow.render)

def Node.print (depth : Nat) (n : Node) : String := renderOutline (n.outline depth)

def Program.print (depth : Nat) (p : Program) : String := renderOutline (p.outline depth)

end ScriptFrontend
