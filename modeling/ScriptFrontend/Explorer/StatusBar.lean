import ScriptFrontend.Explorer.Theme
import ScriptFrontend.Screen.Widget

/-!
The bottom row: what was found and the latest message at the left, the keys at the right.
-/
namespace ScriptFrontend

structure StatusBar where
  message : String
  statements : Nat
  nodes : Nat
  faults : Nat

namespace StatusBar

def base : Style := Style.plain.on Theme.barBackground

def words : Style := Theme.code.on Theme.barBackground

def separator : Style := Theme.dimmed.on Theme.barBackground

def summary (b : StatusBar) : String :=
  s!" {b.statements} stmts · {b.nodes} nodes · {b.faults} faults "

def left (b : StatusBar) : StyledLine :=
  let background := if b.faults = 0 then Theme.green else Theme.red
  [⟨b.summary, ((Style.color .black).on background).strong⟩, ⟨" | ", separator⟩,
    ⟨" " ++ b.message ++ " ", words⟩]

def hints : StyledLine :=
  let key (name : String) : Span := ⟨name, (Style.color .black).on Theme.grey⟩
  let gap : StyledLine := [⟨"│", separator⟩, ⟨" ", words⟩]
  [key " ⇥ ", ⟨" focus ", words⟩] ++ gap ++ [key " ↑/↓ ", ⟨" scroll ", words⟩] ++ gap ++
    [key " PgUp/PgDn ", ⟨" page ", words⟩] ++ gap ++ [key "q", ⟨" quit ", words⟩]

def draw (b : StatusBar) (r : Region) (c : Canvas) : Canvas :=
  let (l, k) := r.splitColumns 50
  (c.paragraph l base .left [b.left]).paragraph k base .right [hints]

end StatusBar
end ScriptFrontend
