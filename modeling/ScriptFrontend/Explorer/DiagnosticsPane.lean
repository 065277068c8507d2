import ScriptFrontend.Diagnostic
import ScriptFrontend.Explorer.Theme
import ScriptFrontend.Explorer.Window
import ScriptFrontend.Screen.Widget

/-!
The pane with the diagnostics: one row for each, and two more where the line is known, one to quote
it and one for the caret.
-/
namespace ScriptFrontend.DiagnosticsPane

def entry (d : Diagnostic) : List StyledLine :=
  let head : StyledLine :=
    [⟨s!"{d.location.line}:{d.location.column} ", Theme.alarm⟩, ⟨d.message, Theme.code⟩]
  match d.sourceLine with
  | some line => [head, [⟨"  " ++ line, Theme.comment⟩], [⟨"  " ++ d.caret, Theme.caret⟩]]
  | none => [head]

def allRows (ds : List Diagnostic) : List StyledLine := ds.flatMap entry

def rows (height offset : Nat) (ds : List Diagnostic) : List StyledLine :=
  window height offset (allRows ds)

def title (ds : List Diagnostic) : String := s!" Diagnostics ({ds.length}) "

def draw (r : Region) (ds : List Diagnostic) (focused : Bool) (offset : Nat) (c : Canvas) : Canvas :=
  if ds.isEmpty then
    c.framedParagraph r (title ds) (Theme.border focused) Theme.success [[⟨"No syntax errors", .plain⟩]]
  else c.framedList r (title ds) (Theme.border focused) (rows r.visibleRows offset ds)

end ScriptFrontend.DiagnosticsPane
