import ScriptFrontend.Screen.Glyph
import ScriptFrontend.Screen.Region

/-!
A screen under construction: a grid of cells. Everything is drawn by changing single cells, and
nothing is drawn outside of the grid.
-/
namespace ScriptFrontend

structure Cell where
  symbol : String
  style : Style
deriving DecidableEq

def Cell.blank : Cell := ⟨" ", .plain⟩

def Cell.write (symbol : String) (style : Style) (c : Cell) : Cell := ⟨symbol, c.style.patch style⟩

def Cell.shade (style : Style) (c : Cell) : Cell := ⟨c.symbol, c.style.patch style⟩

structure Canvas where
  width : Nat
  height : Nat
  cells : Array Cell

namespace Canvas

def blank (width height : Nat) : Canvas := ⟨width, height, Array.replicate (width * height) .blank⟩

def modify (c : Canvas) (x y : Nat) (f : Cell → Cell) : Canvas :=
  if x < c.width ∧ y < c.height then { c with cells := c.cells.modify (y * c.width + x) f } else c

def rows (c : Canvas) : List (List Cell) :=
  (List.range c.height).map fun y =>
    (List.range c.width).map fun x => (c.cells[y * c.width + x]?).getD .blank

def modifyRow (c : Canvas) (x width y : Nat) (f : Cell → Cell) : Canvas :=
  (List.range width).foldl (fun c i => c.modify (x + i) y f) c

def modifyColumn (c : Canvas) (x y height : Nat) (f : Cell → Cell) : Canvas :=
  (List.range height).foldl (fun c i => c.modify x (y + i) f) c

def shade (c : Canvas) (r : Region) (style : Style) : Canvas :=
  (List.range r.height).foldl (fun c i => c.modifyRow r.x r.width (r.y + i) (.shade style)) c

/-- Writes glyphs from a cell to the right. The cell behind a wide one is cleared. -/
def write (c : Canvas) (x y : Nat) : List Glyph → Canvas
  | [] => c
  | g :: gs =>
    let c := c.modify x y (.write g.symbol g.style)
    let c := if g.wide then c.modify (x + 1) y fun _ => .blank else c
    c.write (x + g.width) y gs

def plainRows (c : Canvas) : List String :=
  c.rows.map fun row => String.join (row.map (·.symbol))

def runs : List Cell → List Span
  | [] => []
  | cell :: cells =>
    match runs cells with
    | [] => [⟨cell.symbol, cell.style⟩]
    | run :: rest =>
      if run.style = cell.style then ⟨cell.symbol ++ run.text, run.style⟩ :: rest
      else ⟨cell.symbol, cell.style⟩ :: run :: rest

def styledRows (c : Canvas) : List StyledLine := c.rows.map runs

end Canvas
end ScriptFrontend
