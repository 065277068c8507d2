import Mathlib
import ScriptFrontend.Decimal.Shortest

/-!
# The decimals that read back as a double

Around every positive finite double lies the interval of the numbers that round to it. No two
doubles share a number, and the digits that are chosen for a double stand for one of its own.
-/
namespace ScriptFrontend.Decimal

/-! Ratios as rational numbers -/

namespace Ratio

def rat (r : Ratio) : ℚ := r.num / r.den

theorem scaled_den_pos (n : Nat) (e : Int) : 0 < (scaled n e).den := by
  cases e with
  | ofNat k => exact Nat.one_pos
  | negSucc k => exact Nat.pow_pos (by decide)

theorem scaled_num_pos {n : Nat} (h : 0 < n) (e : Int) : 0 < (scaled n e).num := by
  cases e with
  | ofNat k => exact Nat.mul_pos h (Nat.pow_pos (by decide))
  | negSucc k => exact h

theorem shift_den_pos {r : Ratio} (h : 0 < r.den) (e : Int) : 0 < (r.shift e).den := by
  cases e with
  | ofNat k => exact Nat.mul_pos h (Nat.pow_pos (by decide))
  | negSucc k => exact h

theorem rat_scaled (n : Nat) (e : Int) : (scaled n e).rat = n * 2 ^ e := by
  cases e with
  | ofNat k => simp [scaled, rat]
  | negSucc k => simp [scaled, rat, zpow_negSucc, div_eq_mul_inv]

theorem rat_shift (r : Ratio) (e : Int) : (r.shift e).rat = r.rat / 10 ^ e := by
  cases e with
  | ofNat k => simp [shift, rat, div_div]
  | negSucc k => simp [shift, rat, zpow_negSucc, div_mul_eq_mul_div]

theorem le_mul_iff {r : Ratio} (h : 0 < r.den) (d : Nat) : r.num ≤ d * r.den ↔ r.rat ≤ d := by
  have den : (0 : ℚ) < r.den := by exact_mod_cast h
  rw [rat, div_le_iff₀ den]
  exact_mod_cast Iff.rfl

theorem mul_le_iff {r : Ratio} (h : 0 < r.den) (d : Nat) : d * r.den ≤ r.num ↔ d ≤ r.rat := by
  have den : (0 : ℚ) < r.den := by exact_mod_cast h
  rw [rat, le_div_iff₀ den]
  exact_mod_cast Iff.rfl

end Ratio

namespace Binary
variable {b c : Binary} {x : ℚ}

/-! Intervals -/

/-- A double as it is packed: only the smallest exponent has short mantissas, and the doubles below
are denser where a longer mantissa begins. -/
structure Canonical (b : Binary) : Prop where
  pos : 0 < b.mantissa
  bounded : b.mantissa < 2 ^ 53
  least : -1074 ≤ b.exponent
  normal : -1074 < b.exponent → 2 ^ 52 ≤ b.mantissa
  dense : b.denserBelow = true ↔ b.mantissa = 2 ^ 52 ∧ -1074 < b.exponent

def low (b : Binary) : Nat := 4 * b.mantissa - (if b.denserBelow then 1 else 2)

def high (b : Binary) : Nat := 4 * b.mantissa + 2

/-- A quarter of the distance to the next double above. -/
def unit (b : Binary) : ℚ := 2 ^ (b.exponent - 2)

theorem unit_pos (b : Binary) : 0 < b.unit := by
  rw [unit]
  positivity

theorem rat_lower (b : Binary) : b.lower.rat = b.low * b.unit := Ratio.rat_scaled _ _

theorem rat_upper (b : Binary) : b.upper.rat = b.high * b.unit := Ratio.rat_scaled _ _

theorem rat_value (b : Binary) : b.value.rat = (4 * b.mantissa : Nat) * b.unit := Ratio.rat_scaled _ _

/-- The numbers that round to the double; ties go to the even mantissa. -/
def Encloses (b : Binary) (x : ℚ) : Prop :=
  if b.mantissa % 2 = 0 then b.low * b.unit ≤ x ∧ x ≤ b.high * b.unit
  else b.low * b.unit < x ∧ x < b.high * b.unit

theorem encloses_of_lt (below : b.low * b.unit < x) (above : x < b.high * b.unit) : b.Encloses x := by
  unfold Encloses
  split
  · exact ⟨below.le, above.le⟩
  · exact ⟨below, above⟩

theorem Encloses.bounds (h : b.Encloses x) : b.low * b.unit ≤ x ∧ x ≤ b.high * b.unit := by
  unfold Encloses at h
  split at h
  · exact h
  · exact ⟨h.1.le, h.2.le⟩

theorem holds_iff (b : Binary) (grid : Int) (d : Nat) :
    b.holds grid d = true ↔ b.Encloses (d * 10 ^ grid) := by
  have ten : (0 : ℚ) < 10 ^ grid := by positivity
  have lowerDen := Ratio.shift_den_pos (Ratio.scaled_den_pos
    (4 * b.mantissa - (if b.denserBelow then 1 else 2)) (b.exponent - 2)) grid
  have upperDen := Ratio.shift_den_pos (Ratio.scaled_den_pos (4 * b.mantissa + 2) (b.exponent - 2)) grid
  rw [← lower] at lowerDen
  rw [← upper] at upperDen
  unfold holds Encloses
  dsimp only
  split
  · simp only [Bool.and_eq_true, decide_eq_true_eq, Ratio.le_mul_iff lowerDen, Ratio.mul_le_iff upperDen,
      Ratio.rat_shift, rat_lower, rat_upper, div_le_iff₀ ten, le_div_iff₀ ten]
  · simp only [Bool.and_eq_true, decide_eq_true_eq, ← not_le, Ratio.le_mul_iff upperDen,
      Ratio.mul_le_iff lowerDen, Ratio.rat_shift, rat_lower, rat_upper, div_le_iff₀ ten, le_div_iff₀ ten]

/-! Doubles share no number -/

theorem unit_eq (le : b.exponent ≤ c.exponent) :
    c.unit = 2 ^ (c.exponent - b.exponent).toNat * b.unit := by
  have split : c.exponent - 2 = ((c.exponent - b.exponent).toNat : Int) + (b.exponent - 2) := by omega
  rw [unit, split, zpow_add₀ (by norm_num), zpow_natCast, unit]

/-- Where two doubles share a number, the lower end of the larger lies in the interval of the smaller;
it is not the end of both unless both mantissas are even. -/
theorem low_le_high (h : b.Encloses x) (k : c.Encloses x) (le : b.exponent ≤ c.exponent) :
    c.low * 2 ^ (c.exponent - b.exponent).toNat ≤ b.high ∧
      (c.low * 2 ^ (c.exponent - b.exponent).toNat = b.high → b.mantissa % 2 = 0 ∧ c.mantissa % 2 = 0) := by
  have scaled : (c.low : ℚ) * c.unit = (c.low * 2 ^ (c.exponent - b.exponent).toNat : Nat) * b.unit := by
    rw [unit_eq le]
    push_cast
    ring
  have between : ((c.low * 2 ^ (c.exponent - b.exponent).toNat : Nat) : ℚ) * b.unit ≤ b.high * b.unit :=
    scaled ▸ k.bounds.1.trans h.bounds.2
  refine ⟨by exact_mod_cast le_of_mul_le_mul_right between b.unit_pos, fun same => ?_⟩
  have meet : (c.low : ℚ) * c.unit = b.high * b.unit := by rw [scaled, same]
  have above := k.bounds.1
  rw [meet] at above
  unfold Encloses at h k
  split at h
  · rename_i even
    split at k
    · rename_i even'
      exact ⟨even, even'⟩
    · exact absurd (meet ▸ k.1) (not_lt.2 h.2)
  · exact absurd h.2 (not_lt.2 above)

theorem Canonical.eq_of_exponent (h : b.Canonical) (k : c.Canonical) (exponent : b.exponent = c.exponent)
    (mantissa : b.mantissa = c.mantissa) : b = c := by
  have dense : b.denserBelow = c.denserBelow := by
    rw [Bool.eq_iff_iff, h.dense, k.dense, mantissa, exponent]
  cases b
  cases c
  simp_all

theorem Canonical.mantissa_le (h : b.Canonical) (k : c.Canonical) (hb : b.Encloses x)
    (hc : c.Encloses x) (le : b.exponent ≤ c.exponent) :
    b.exponent = c.exponent ∧ c.mantissa ≤ b.mantissa := by
  obtain ⟨within, ends⟩ := low_le_high hb hc le
  have bounded := h.bounded
  have least := h.least
  have positive := k.pos
  have low : c.low = 4 * c.mantissa - 2 ∨ c.low = 4 * c.mantissa - 1 ∧ c.mantissa = 2 ^ 52 := by
    cases dense : c.denserBelow with
    | false => exact .inl (by rw [low, dense]; rfl)
    | true => exact .inr ⟨by rw [low, dense]; rfl, (k.dense.1 dense).1⟩
  have sparse : c.low = 4 * c.mantissa - 2 → c.mantissa = 2 ^ 52 → c.exponent ≤ -1074 := by
    intro wide least
    by_contra normal
    have dense := k.dense.2 ⟨least, by omega⟩
    rw [Binary.low, dense, if_pos rfl] at wide
    omega
  rw [high] at within ends
  rcases Nat.eq_zero_or_pos (c.exponent - b.exponent).toNat with equal | apart
  · rw [equal, pow_zero, Nat.mul_one] at within ends
    exact ⟨by omega, by omega⟩
  · have long := k.normal (by omega)
    have twice : c.low * 2 ≤ c.low * 2 ^ (c.exponent - b.exponent).toNat :=
      Nat.mul_le_mul_left _ (Nat.le_self_pow (Nat.ne_of_gt apart) 2)
    omega

/-- A number rounds to one double only. -/
theorem Canonical.eq_of_encloses (h : b.Canonical) (k : c.Canonical) (hb : b.Encloses x)
    (hc : c.Encloses x) : b = c := by
  rcases le_total b.exponent c.exponent with le | le
  · obtain ⟨exponent, mantissa⟩ := h.mantissa_le k hb hc le
    obtain ⟨-, mantissa'⟩ := k.mantissa_le h hc hb exponent.ge
    exact h.eq_of_exponent k exponent (Nat.le_antisymm mantissa' mantissa)
  · obtain ⟨exponent, mantissa⟩ := k.mantissa_le h hc hb le
    obtain ⟨-, mantissa'⟩ := h.mantissa_le k hb hc exponent.ge
    exact h.eq_of_exponent k exponent.symm (Nat.le_antisymm mantissa mantissa')

/-! The chosen digits -/

theorem lt_pow_length (n : Nat) : n < 10 ^ (digitsOf n).length :=
  (Nat.length_toDigits_le_iff (by decide) Nat.length_toDigits_pos).1 le_rfl

theorem pow_length_le {n : Nat} (h : 0 < n) : 10 ^ ((digitsOf n).length - 1) ≤ n := by
  rcases Nat.eq_zero_or_pos ((digitsOf n).length - 1) with single | more
  · rwa [single, pow_zero]
  · rw [← not_lt, ← Nat.length_toDigits_le_iff (by decide) more]
    exact fun short => absurd short (by rw [digitsOf] at more ⊢; omega)

/-- The power of ten below the value. -/
theorem magnitude_le (h : b.Canonical) : (10 : ℚ) ^ (b.magnitude - 1) ≤ b.value.rat := by
  have denPos : 0 < b.value.den := Ratio.scaled_den_pos _ _
  have numPos : 0 < b.value.num := Ratio.scaled_num_pos (Nat.mul_pos (by decide) h.pos) _
  have den : (0 : ℚ) < b.value.den := by exact_mod_cast denPos
  rw [Ratio.rat, le_div_iff₀ den, magnitude]
  split
  · rename_i large
    have power := pow_length_le (Nat.div_pos large denPos)
    have length : 0 < (digitsOf (b.value.num / b.value.den)).length := Nat.length_toDigits_pos
    have exponent : ((digitsOf (b.value.num / b.value.den)).length : Int) - 1 =
        ((digitsOf (b.value.num / b.value.den)).length - 1 : Nat) := by omega
    rw [exponent, zpow_natCast]
    exact_mod_cast (Nat.mul_le_mul_right _ power).trans (Nat.div_mul_le_self _ _)
  · have power := Nat.lt_mul_of_div_lt (lt_pow_length (b.value.den / b.value.num)) numPos
    have exponent : 1 - ((digitsOf (b.value.den / b.value.num)).length : Int) - 1 =
        -((digitsOf (b.value.den / b.value.num)).length : Int) := by omega
    rw [exponent, zpow_neg, zpow_natCast, inv_mul_le_iff₀ (by positivity)]
    exact_mod_cast power.le

theorem onGrid?_encloses {grid : Int} {d : Nat} (found : b.onGrid? grid = some d) :
    b.Encloses (d * 10 ^ grid) := by
  rw [← holds_iff]
  unfold onGrid? at found
  dsimp only at found
  split at found
  · rename_i below above
    cases found
    split
    · exact below
    · exact above
  · rename_i below above
    cases found
    exact below
  · rename_i below above
    cases found
    exact above
  · cases found

theorem floorOn_bounds (b : Binary) (grid : Int) :
    b.floorOn grid * 10 ^ grid ≤ b.value.rat ∧ b.value.rat < (b.floorOn grid + 1) * 10 ^ grid := by
  have ten : (0 : ℚ) < 10 ^ grid := by positivity
  have den : 0 < (b.value.shift grid).den := Ratio.shift_den_pos (Ratio.scaled_den_pos _ _) grid
  constructor
  · rw [← le_div_iff₀ ten, ← Ratio.rat_shift, ← Ratio.mul_le_iff den]
    exact Nat.div_mul_le_self _ _
  · rw [← div_lt_iff₀ ten, ← Ratio.rat_shift, ← not_le]
    have next := Ratio.mul_le_iff den (b.floorOn grid + 1)
    rw [Nat.cast_add, Nat.cast_one] at next
    rw [← next, not_le]
    exact Nat.lt_mul_of_div_lt (Nat.lt_succ_self _) den

theorem floorOn_encloses (h : b.Canonical) :
    b.Encloses (b.floorOn (b.magnitude - 18) * 10 ^ (b.magnitude - 18)) := by
  obtain ⟨below, above⟩ := b.floorOn_bounds (b.magnitude - 18)
  rw [rat_value] at below above
  push_cast at below above
  have bounded : (b.mantissa : ℚ) < 2 ^ 53 := by exact_mod_cast h.bounded
  have unit := b.unit_pos
  have low : (b.low + 1) * b.unit ≤ 4 * b.mantissa * b.unit := by
    have positive := h.pos
    have apart : b.low + 1 ≤ 4 * b.mantissa := by
      rw [Binary.low]
      split <;> omega
    exact mul_le_mul_of_nonneg_right (by exact_mod_cast apart) unit.le
  -- no mantissa has so many digits that the grid would be as coarse as the doubles
  have fine : (10 : ℚ) ^ (b.magnitude - 18) < b.unit := by
    have split : b.magnitude - 1 = (b.magnitude - 18) + 17 := by omega
    have power := magnitude_le h
    rw [split, zpow_add₀ (by norm_num), rat_value] at power
    push_cast at power
    have small : 4 * b.mantissa * b.unit < 4 * 2 ^ 53 * b.unit :=
      mul_lt_mul_of_pos_right (by linarith) unit
    norm_num at power small
    linarith
  have high : (b.high : ℚ) * b.unit = 4 * b.mantissa * b.unit + 2 * b.unit := by
    rw [Binary.high]
    push_cast
    ring
  exact encloses_of_lt (by linarith) (by linarith)

theorem firstGrid_encloses (h : b.Canonical) {n more : Nat} (total : n + more = 18) :
    ∃ grid d, b.firstGrid n more = .ofGrid grid d ∧ b.Encloses (d * 10 ^ grid) := by
  induction more generalizing n with
  | zero =>
    obtain rfl : n = 18 := total
    exact ⟨_, _, rfl, floorOn_encloses h⟩
  | succ more ih =>
    rw [firstGrid]
    split
    · rename_i d found
      exact ⟨_, d, rfl, onGrid?_encloses found⟩
    · exact ih (by omega)

theorem shortest_encloses (h : b.Canonical) :
    ∃ grid d, b.shortest = .ofGrid grid d ∧ b.Encloses (d * 10 ^ grid) :=
  firstGrid_encloses h rfl

end Binary
end ScriptFrontend.Decimal
