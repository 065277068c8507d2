import ScriptFrontend.Screen.Canvas

/-!
The drawn parts that panes are made of: a bordered frame with a title, a paragraph, a list of rows.
-/
namespace ScriptFrontend.Canvas

/-- A border around a region. The title stands over the upper edge, from its second cell to its
last but one. -/
def frame (c : Canvas) (r : Region) (title : String) (style : Style) : Canvas :=
  if r.isEmpty then c
  else
    let put (symbol : String) : Cell → Cell := .write symbol style
    let c := c.modifyColumn r.x r.y r.height (put "│")
    let c := c.modifyRow r.x r.width r.y (put "─")
    let c := c.modifyColumn (r.right - 1) r.y r.height (put "│")
    let c := c.modifyRow r.x r.width (r.bottom - 1) (put "─")
    let c := c.modify (r.right - 1) (r.bottom - 1) (put "┘")
    let c := c.modify (r.right - 1) r.y (put "┐")
    let c := c.modify r.x (r.bottom - 1) (put "└")
    let c := c.modify r.x r.y (put "┌")
    c.write (r.x + 1) r.y (fitting (r.width - 2) (glyphsOf .plain title.toList))

inductive Alignment where
  | left | right
deriving DecidableEq

/-- Lines from the top of a region, cut at its right edge. A line set to the right is cut first and
then moved. -/
def writeLines (c : Canvas) (r : Region) (alignment : Alignment) (lines : List StyledLine) : Canvas :=
  ((lines.take r.height).zipIdx).foldl (fun c (line, i) =>
    let glyphs := fitting r.width (line.glyphs.filter (·.width ≤ r.width))
    let shift := if alignment = .right then r.width - glyphsWidth glyphs else 0
    c.write (r.x + shift) (r.y + i) glyphs) c

def paragraph (c : Canvas) (r : Region) (base : Style) (alignment : Alignment)
    (lines : List StyledLine) : Canvas :=
  (c.shade r base).writeLines r alignment lines

/-- A paragraph in a frame; the frame is drawn over the style of the paragraph. -/
def framedParagraph (c : Canvas) (r : Region) (title : String) (border base : Style)
    (lines : List StyledLine) : Canvas :=
  let c := (c.shade r base).frame r title border
  c.paragraph r.inner base .left lines

def framedList (c : Canvas) (r : Region) (title : String) (border : Style)
    (lines : List StyledLine) : Canvas :=
  let area := r.inner.indent
  ((lines.take area.height).zipIdx).foldl (fun c (line, i) =>
    c.write area.x (area.y + i) (fitting area.width line.glyphs)) (c.frame r title border)

end ScriptFrontend.Canvas
