/-!
Counts per key, listed in increasing order of a rank of the keys. Only keys that were counted appear.
-/
namespace ScriptFrontend

structure Tally (κ : Type) where
  entries : List (κ × Nat)

namespace Tally
variable {κ : Type}

def empty : Tally κ := ⟨[]⟩

/-- One more of a key, in a list in order of rank. -/
def bumpIn (rank : κ → Nat) (k : κ) : List (κ × Nat) → List (κ × Nat)
  | [] => [(k, 1)]
  | (j, n) :: rest =>
    if rank k < rank j then (k, 1) :: (j, n) :: rest
    else if rank k = rank j then (j, n + 1) :: rest
    else (j, n) :: bumpIn rank k rest

def bump (rank : κ → Nat) (t : Tally κ) (k : κ) : Tally κ := ⟨bumpIn rank k t.entries⟩

def bumpAll (rank : κ → Nat) (t : Tally κ) (ks : List κ) : Tally κ := ks.foldl (bump rank) t

def count [DecidableEq κ] (t : Tally κ) (k : κ) : Nat := (t.entries.lookup k).getD 0

def has [DecidableEq κ] (t : Tally κ) (k : κ) : Bool := (t.entries.lookup k).isSome

def total (t : Tally κ) : Nat := t.entries.foldr (fun entry n => entry.2 + n) 0

end Tally
end ScriptFrontend
