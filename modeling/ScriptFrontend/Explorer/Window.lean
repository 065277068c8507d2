import ScriptFrontend.Screen.Region

/-!
Scrolling: which rows of a long content a pane shows.
-/
namespace ScriptFrontend

/-- Rows inside the border of a pane. Even a pane too small for any counts one. -/
def Region.visibleRows (r : Region) : Nat := max 1 (r.height - 2)

/-- The offset moved back so that the last page stays full; content that fits is not scrolled. -/
def clampOffset (total height offset : Nat) : Nat := min offset (total - height)

def window {α : Type} (height offset : Nat) (rows : List α) : List α := (rows.drop offset).take height

theorem clampOffset_le (total height offset : Nat) : clampOffset total height offset ≤ total - height :=
  Nat.min_le_right _ _

theorem clampOffset_clampOffset (total height offset : Nat) :
    clampOffset total height (clampOffset total height offset) = clampOffset total height offset := by
  unfold clampOffset
  omega

theorem length_window_clampOffset {α : Type} (height offset : Nat) (rows : List α) :
    (window height (clampOffset rows.length height offset) rows).length = min height rows.length := by
  simp only [window, clampOffset, List.length_take, List.length_drop]
  omega

end ScriptFrontend
