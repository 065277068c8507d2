/-!
The lines of a text. A line feed ends a line, one carriage return right before it belongs to the
ending, and the text behind the last line feed is a line only if it holds a character.
-/
namespace ScriptFrontend.Text

def pieces : List Char → List (List Char)
  | [] => [[]]
  | c :: cs =>
    if c = '\n' then [] :: pieces cs
    else
      match pieces cs with
      | [] => [[c]]
      | p :: ps => (c :: p) :: ps

def dropReturn (p : List Char) : List Char :=
  if p.getLast? = some '\r' then p.dropLast else p

/-- Every piece but the last was ended by a line feed. -/
def linesOfPieces : List (List Char) → List (List Char)
  | [] => []
  | [p] => if p = [] then [] else [p]
  | p :: q :: ps => dropReturn p :: linesOfPieces (q :: ps)

def lines (s : String) : List String :=
  (linesOfPieces (pieces s.toList)).map String.ofList

def nthLine? (all : List String) (n : Nat) : Option String :=
  if n = 0 then none else all[n - 1]?

theorem pieces_ne_nil (cs : List Char) : pieces cs ≠ [] := by
  cases cs with
  | nil => simp [pieces]
  | cons c cs =>
    unfold pieces
    split
    · simp
    · split <;> simp

end ScriptFrontend.Text
