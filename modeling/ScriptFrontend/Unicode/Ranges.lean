/-!
Sets of code points, written as closed ranges in increasing order.
-/
namespace ScriptFrontend.Unicode

def covers : List (Nat × Nat) → Nat → Bool
  | [], _ => false
  | (lo, hi) :: rest, n => if n < lo then false else n ≤ hi || covers rest n

end ScriptFrontend.Unicode
