import ScriptFrontend.Location
import ScriptFrontend.Text.Columns

/-!
Reports on a faulty place in a text. Where the line is known it is quoted, with a caret below the column.
-/
namespace ScriptFrontend

structure Diagnostic where
  message : String
  location : Location
  sourceLine : Option String
deriving DecidableEq

namespace Diagnostic

/-- What stands below a character so that the caret keeps its column however tabs are drawn. -/
def padding (c : Char) : Char := if c = '\t' then '\t' else ' '

def caret (d : Diagnostic) : String :=
  let width := d.location.column - 1
  let quoted := (d.sourceLine.getD "").toList.take width
  String.ofList (quoted.map padding ++ List.replicate (width - quoted.length) ' ' ++ ['^'])

def render (d : Diagnostic) : String :=
  let head := s!"Parse error at line {d.location.line}, column {d.location.column}: {d.message}"
  match d.sourceLine with
  | some line => head ++ "\n   " ++ line ++ "\n   " ++ d.caret
  | none => head

end Diagnostic
end ScriptFrontend
