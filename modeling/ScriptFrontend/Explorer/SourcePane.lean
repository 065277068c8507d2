import ScriptFrontend.Explorer.Highlight
import ScriptFrontend.Explorer.Window
import ScriptFrontend.Screen.Widget
import ScriptFrontend.Text.Lines

/-!
The pane with the text of the program. Every line has its number; lines with faults are marked and
have a background of their own.
-/
namespace ScriptFrontend.SourcePane

def gutter (faulty : Bool) (number : Nat) : Span :=
  ⟨(if faulty then "!" else " ") ++ Text.alignRight 4 (toString number) ++ " ",
    if faulty then Theme.alarm else Theme.comment⟩

def tint (span : Span) : Span := { span with style := span.style.on Theme.faultBackground }

def row (faulty : Bool) (number : Nat) (text : String) : StyledLine :=
  gutter faulty number ::
    if faulty then (Highlight.line text).map tint else Highlight.line text

def rows (faulty : Nat → Bool) (height offset : Nat) (lines : List String) : List StyledLine :=
  (window height offset (lines.zipIdx 1)).map fun (text, number) => row (faulty number) number text

def draw (r : Region) (lines : List String) (faulty : Nat → Bool) (focused : Bool) (offset : Nat)
    (c : Canvas) : Canvas :=
  c.framedParagraph r " Source " (Theme.border focused) .plain (rows faulty r.visibleRows offset lines)

end ScriptFrontend.SourcePane
