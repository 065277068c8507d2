/-!
Places in a text. Lines and columns count from one, columns count characters, and only a line feed
ends a line.
-/
namespace ScriptFrontend

structure Location where
  line : Nat
  column : Nat
deriving DecidableEq

namespace Location

def start : Location := ⟨1, 1⟩

def step (l : Location) (c : Char) : Location :=
  if c = '\n' then ⟨l.line + 1, 1⟩ else ⟨l.line, l.column + 1⟩

def after (l : Location) (text : List Char) : Location :=
  text.foldl step l

@[simp] theorem after_nil (l : Location) : l.after [] = l := rfl

@[simp] theorem after_cons (l : Location) (c : Char) (text : List Char) :
    l.after (c :: text) = (l.step c).after text := rfl

theorem after_append (l : Location) (a b : List Char) :
    l.after (a ++ b) = (l.after a).after b :=
  List.foldl_append

end Location
end ScriptFrontend
