/-!
Texts set in columns of a fixed number of characters. A text wider than its column is left as it is.
-/
namespace ScriptFrontend.Text

def blanks (n : Nat) : String :=
  String.ofList (List.replicate n ' ')

def alignRight (width : Nat) (s : String) : String :=
  blanks (width - s.length) ++ s

def alignLeft (width : Nat) (s : String) : String :=
  s ++ blanks (width - s.length)

def rule (c : Char) (n : Nat) : String :=
  String.ofList (List.replicate n c)

end ScriptFrontend.Text
