import ScriptFrontend.Explorer.Theme
import ScriptFrontend.Explorer.Window
import ScriptFrontend.Screen.Widget
import ScriptFrontend.Tree.Outline
import ScriptFrontend.Unicode.Blank

/-!
The pane with the outline of the tree. The kind of a node stands out, the name of a role steps back.
-/
namespace ScriptFrontend.TreePane

def roleWords : List String :=
  [.value, .condition, .consequent, .alternative, .body, .parameters [], .left, .right,
   .arguments].map OutlineLabel.word

def kindStyle (word : String) : Style :=
  if word ∈ roleWords then Theme.dimmed else Theme.nodeKind

/-- Indentation, the word up to the first colon, the colon, and the rest. A line without a colon
stays plain. -/
def styleLine (text : String) : StyledLine :=
  let indentation := text.toList.takeWhile Unicode.isBlank
  let content := text.toList.dropWhile Unicode.isBlank
  let kind := String.ofList (content.takeWhile (· ≠ ':'))
  match content.dropWhile (· ≠ ':') with
  | [] => [⟨text, .plain⟩]
  | _ :: rest =>
    [⟨String.ofList indentation, .plain⟩, ⟨kind, kindStyle kind⟩, ⟨":", Theme.dimmed⟩,
      ⟨String.ofList rest, Theme.code⟩]

def rows (height offset : Nat) (lines : List String) : List StyledLine :=
  (window height offset lines).map styleLine

def draw (r : Region) (lines : List String) (focused : Bool) (offset : Nat) (c : Canvas) : Canvas :=
  if lines.isEmpty then
    c.framedParagraph r " AST " (Theme.border focused) Theme.comment [[⟨"(empty program)", .plain⟩]]
  else c.framedList r " AST " (Theme.border focused) (rows r.visibleRows offset lines)

end ScriptFrontend.TreePane
