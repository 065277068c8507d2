import ScriptFrontend.Tally
import ScriptFrontend.Tree.Traversal

/-!
How many nodes of each kind there are in the trees visited so far.
-/
namespace ScriptFrontend

abbrev Census := Tally NodeKind

namespace Census

def empty : Census := Tally.empty

def add (c : Census) (n : Node) : Census :=
  c.bumpAll NodeKind.rank (n.visits.map Visit.kind)

def ofProgram (p : Program) : Census := add empty (.program p)

/-- The count of a kind by its label; a word that labels no kind counts nothing. -/
def countLabelled (c : Census) (label : String) : Nat :=
  match NodeKind.ofLabel? label with
  | some k => c.count k
  | none => 0

def summary (c : Census) : List (String × Nat) :=
  c.entries.map fun (k, n) => (k.label, n)

end Census
end ScriptFrontend
