import ScriptFrontend.Screen.Style
import ScriptFrontend.Unicode.Wide

/-!
What the characters of a text take on a screen. Every character stands in a cell of its own, a wide
one reaches over the cell behind it, a line feed is not drawn, and a carriage return with a line feed
is drawn as one.
-/
namespace ScriptFrontend

structure Glyph where
  symbol : String
  wide : Bool
  style : Style

def Glyph.width (g : Glyph) : Nat := if g.wide then 2 else 1

def glyphsOf (style : Style) : List Char → List Glyph
  | [] => []
  | '\r' :: '\n' :: cs => ⟨"\r\n", false, style⟩ :: glyphsOf style cs
  | '\n' :: cs => glyphsOf style cs
  | c :: cs => ⟨c.toString, Unicode.isWide c, style⟩ :: glyphsOf style cs

def StyledLine.glyphs (line : StyledLine) : List Glyph :=
  line.flatMap fun span => glyphsOf span.style span.text.toList

def glyphsWidth (gs : List Glyph) : Nat := gs.foldr (fun g n => g.width + n) 0

/-- The glyphs from the left that fit a width; the first that does not ends the line. -/
def fitting (width : Nat) : List Glyph → List Glyph
  | [] => []
  | g :: gs => if g.width ≤ width then g :: fitting (width - g.width) gs else []

end ScriptFrontend
