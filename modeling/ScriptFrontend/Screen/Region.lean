/-!
Rectangles of a screen and how they are divided. Sizes never become negative.
-/
namespace ScriptFrontend

structure Region where
  x : Nat
  y : Nat
  width : Nat
  height : Nat
deriving DecidableEq

namespace Region

def right (r : Region) : Nat := r.x + r.width

def bottom (r : Region) : Nat := r.y + r.height

def isEmpty (r : Region) : Bool := r.width = 0 || r.height = 0

def inner (r : Region) : Region := ⟨r.x + 1, r.y + 1, r.width - 2, r.height - 2⟩

def indent (r : Region) : Region := ⟨r.x + 1, r.y, r.width - 1, r.height⟩

/-- A share of a length, rounded to the nearest; an exact half goes up. -/
def share (percent length : Nat) : Nat := (percent * length + 50) / 100

def splitColumns (percent : Nat) (r : Region) : Region × Region :=
  let w := share percent r.width
  (⟨r.x, r.y, w, r.height⟩, ⟨r.x + w, r.y, r.width - w, r.height⟩)

def splitRows (percent : Nat) (r : Region) : Region × Region :=
  let h := share percent r.height
  (⟨r.x, r.y, r.width, h⟩, ⟨r.x, r.y + h, r.width, r.height - h⟩)

/-- The last row, if there is one, and what lies above. -/
def splitLastRow (r : Region) : Region × Region :=
  let h := r.height - 1
  (⟨r.x, r.y, r.width, h⟩, ⟨r.x, r.y + h, r.width, r.height - h⟩)

end Region
end ScriptFrontend
