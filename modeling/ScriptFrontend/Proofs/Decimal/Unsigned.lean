import Mathlib
import ScriptFrontend.Decimal.Reader

/-!
# Doubles read from digits

Digits around a point are read as zero, a positive number or infinity, never as a negative number or
as something that is no number, however many digits there are. Rounding and packing keep the sign,
and a positive number is never divided by zero or infinity on the way.
-/
namespace ScriptFrontend.Decimal
open Float.Model UnpackedFloat
variable {u : UnpackedFloat} {x : Float}

inductive Unsigned : UnpackedFloat → Prop where
  | zero : Unsigned (.zero .positive)
  | finite {m : Nat} {e : Int} {pos : 0 < m} : Unsigned (.finite .positive m e pos)
  | infinity : Unsigned (.infinity .positive)

/-! Packing -/

theorem unsigned_unpack {exponent mantissa} (number : exponent = -1#_ → mantissa = 0#_) :
    Unsigned (UnpackedFloat.unpack .binary64 (packComponents .binary64 .positive exponent mantissa)) := by
  unfold UnpackedFloat.unpack
  simp only [unpackMantissa_packComponents, unpackExponent_packComponents, unpackSign_packComponents,
    Sign.ofBitVec_toBitVec]
  split
  · rename_i top
    rw [if_pos (number top)]
    exact .infinity
  split
  · split
    · exact .zero
    · exact .finite
  · exact .finite

theorem unsigned_unpack_pack (h : Unsigned u) :
    Unsigned (UnpackedFloat.unpack .binary64 (UnpackedFloat.pack .binary64 u)) := by
  cases h with
  | zero => exact unsigned_unpack fun _ => rfl
  | infinity => exact unsigned_unpack fun _ => rfl
  | @finite m e pos =>
    unfold UnpackedFloat.pack
    dsimp only
    split
    · exact unsigned_unpack fun _ => rfl
    rename_i small
    split
    · refine unsigned_unpack fun top => absurd top ?_
      intro top
      have value := congrArg BitVec.toNat top
      simp at value
      omega
    · exact unsigned_unpack fun top => absurd top (by decide)

/-! Arithmetic -/

theorem unsigned_roundWithAccuracy (m : Nat) (e : Int) (accuracy : Accuracy) :
    Unsigned (roundWithAccuracy .binary64 .positive m e accuracy) := by
  unfold roundWithAccuracy
  dsimp only
  split
  · exact .zero
  · exact .finite

theorem unsigned_div (h : Unsigned u) {m : Nat} {e : Int} (pos : 0 < m) :
    Unsigned (div .binary64 u (.finite .positive m e pos)) := by
  cases h with
  | zero => exact .zero
  | infinity => exact .infinity
  | finite => exact unsigned_roundWithAccuracy _ _ _

theorem unsigned_ofNat (n : Nat) : Unsigned (UnpackedFloat.ofNat .binary64 n) := by
  unfold UnpackedFloat.ofNat UnpackedFloat.ofInt UnpackedFloat.normalize
  split
  · rename_i below
    rw [Int.compare_eq_lt] at below
    omega
  · exact .zero
  · exact unsigned_roundWithAccuracy _ _ _

theorem unsigned_ofScientific (n : Nat) (e : Int) :
    Unsigned (UnpackedFloat.ofScientific .binary64 n e) := by
  unfold UnpackedFloat.ofScientific
  split
  · exact .zero
  split
  · exact .infinity
  split
  · exact .zero
  split
  · exact unsigned_roundWithAccuracy _ _ _
  · exact unsigned_div .finite _

def isPositive : UnpackedFloat → Bool
  | .finite .positive _ _ _ => true
  | _ => false

theorem powersOfTen_positive :
    ∀ p ∈ Float.exactlyRepresentablePowersOfTen, isPositive p.toModel.unpack = true := by
  decide +kernel

theorem exists_of_isPositive (h : isPositive u = true) : ∃ m e pos, u = .finite .positive m e pos := by
  unfold isPositive at h
  split at h
  · exact ⟨_, _, _, rfl⟩
  · cases h

theorem unsigned_float_ofScientific (n k : Nat) :
    Unsigned (Float.ofScientific n true k).toModel.unpack := by
  unfold Float.ofScientific
  split
  · obtain ⟨m, e, pos, power⟩ := exists_of_isPositive (powersOfTen_positive _ (Array.getElem_mem _))
    refine unsigned_unpack_pack ?_
    rw [power]
    exact unsigned_div (unsigned_unpack_pack (unsigned_ofNat _)) pos
  · exact unsigned_unpack_pack (unsigned_ofScientific n _)

/-! Comparisons -/

theorem beq_self_of_isNaN (h : x.isNaN = false) : (x == x) = true := by
  rw [Float.isNaN_eq_decide_eq_nan, decide_eq_false_iff_not] at h
  exact Float.beq_self_iff.2 h

theorem nonneg_of_unsigned (h : Unsigned x.toModel.unpack) : 0 ≤ x := by
  have zero : (Float.toModel 0).unpack = .zero .positive := rfl
  apply decide_eq_true (p := Float.toModel 0 ≤ x.toModel)
  change UnpackedFloat.le (Float.toModel 0).unpack x.toModel.unpack = true
  rw [zero]
  generalize x.toModel.unpack = u at h
  cases h <;> rfl

theorem isNaN_of_unsigned (h : Unsigned x.toModel.unpack) : x.isNaN = false := by
  change x.toModel.unpack.isNaN = false
  generalize x.toModel.unpack = u at h
  cases h <;> rfl

theorem floatOfDigits_nonneg (whole fraction : List Char) : 0 ≤ floatOfDigits whole fraction :=
  nonneg_of_unsigned (unsigned_float_ofScientific _ _)

theorem floatOfDigits_isNaN (whole fraction : List Char) : (floatOfDigits whole fraction).isNaN = false :=
  isNaN_of_unsigned (unsigned_float_ofScientific _ _)

end ScriptFrontend.Decimal
