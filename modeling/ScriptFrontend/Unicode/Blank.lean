import ScriptFrontend.Unicode.Ranges

/-!
The White_Space property and texts without any other character.
-/
namespace ScriptFrontend.Unicode

def blankRanges : List (Nat × Nat) :=
  [(0x9, 0xd), (0x20, 0x20), (0x85, 0x85), (0xa0, 0xa0), (0x1680, 0x1680), (0x2000, 0x200a),
   (0x2028, 0x2029), (0x202f, 0x202f), (0x205f, 0x205f), (0x3000, 0x3000)]

def isBlank (c : Char) : Bool :=
  covers blankRanges c.toNat

def isBlankText (s : String) : Bool :=
  s.toList.all isBlank

end ScriptFrontend.Unicode
