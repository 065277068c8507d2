/-!
Styles of characters on a screen, and pieces of styled text.
-/
namespace ScriptFrontend

inductive Color where
  | rgb (red green blue : Nat)
  | black
deriving DecidableEq

/-- No colour stands for what the terminal shows by default. -/
structure Style where
  foreground : Option Color
  background : Option Color
  bold : Bool
deriving DecidableEq

namespace Style

def plain : Style := ⟨none, none, false⟩

def color (c : Color) : Style := ⟨some c, none, false⟩

def on (s : Style) (background : Color) : Style := { s with background := some background }

def strong (s : Style) : Style := { s with bold := true }

/-- A style put over another: colours replace, and what was bold stays so. -/
def patch (below above : Style) : Style :=
  ⟨above.foreground <|> below.foreground, above.background <|> below.background,
    below.bold || above.bold⟩

@[simp] theorem patch_plain (s : Style) : s.patch plain = s := by
  cases s
  simp [patch, plain]

end Style

structure Span where
  text : String
  style : Style
deriving DecidableEq

abbrev StyledLine := List Span

def StyledLine.text (line : StyledLine) : String := String.join (line.map (·.text))

end ScriptFrontend
