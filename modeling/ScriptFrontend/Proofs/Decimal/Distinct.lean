import ScriptFrontend.Proofs.Decimal.Value

/-!
# Doubles are told apart by their texts

The text of a double, without its sign, is read as a number that rounds to the double. So doubles with
one text are one double, unless they are not numbers.
-/
namespace ScriptFrontend.Decimal
open Float.Model UnpackedFloat

/-! Magnitudes -/

theorem Binary.low_pos {b : Binary} (h : b.Canonical) : 0 < b.low := by
  have positive := h.pos
  rw [low]
  split <;> omega

/-- The text of a finite double is read as a number that rounds to it. -/
theorem Binary.valueOf_shortest {b : Binary} (h : b.Canonical) :
    0 < valueOf b.shortest.text ∧ b.Encloses (valueOf b.shortest.text) := by
  obtain ⟨grid, n, shortest, encloses⟩ := b.shortest_encloses h
  have positive : (0 : ℚ) < n * 10 ^ grid := by
    have lowest : (0 : ℚ) < b.low * b.unit := mul_pos (by exact_mod_cast low_pos h) b.unit_pos
    exact lowest.trans_le encloses.bounds.1
  rw [← Digits.value_ofGrid, ← shortest] at positive encloses
  have digits : ∀ c ∈ b.shortest.digits, isDigit c = true := by
    intro c mem
    obtain ⟨k, split⟩ := Digits.exists_ofGrid grid n
    rw [shortest] at mem
    exact isDigit_of_mem_digitsOf (split ▸ List.mem_append_left _ mem)
  have filled : b.shortest.digits ≠ [] := by
    intro empty
    rw [Digits.value, empty] at positive
    simp [natOfDigits] at positive
  have read : valueOf b.shortest.text = b.shortest.value := by
    unfold Digits.text
    split
    · exact Digits.valueOf_positional digits
    · exact Digits.valueOf_scientific digits filled
  rw [read]
  exact ⟨positive, encloses⟩

namespace Magnitude
variable {m k : Magnitude}

/-- The text without a sign. -/
def body : Magnitude → List Char
  | zero => "0.0".toList
  | finite b => b.shortest.text
  | infinite => "inf".toList
  | notANumber => "NaN".toList

def Canonical (m : Magnitude) : Prop := ∀ b, m = .finite b → b.Canonical

theorem valueOf_body (h : m.Canonical) : 0 < valueOf m.body ↔ ∃ b, m = .finite b := by
  have nothing {cs : List Char} (h : valueOf cs = 0) : ¬0 < valueOf cs := by
    rw [h]
    exact lt_irrefl 0
  cases m with
  | finite b => exact ⟨fun _ => ⟨b, rfl⟩, fun _ => (b.valueOf_shortest (h b rfl)).1⟩
  | zero => exact ⟨fun positive => absurd positive (nothing (zero_mul _)), nofun⟩
  | infinite => exact ⟨fun positive => absurd positive (nothing (zero_mul _)), nofun⟩
  | notANumber => exact ⟨fun positive => absurd positive (nothing (zero_mul _)), nofun⟩

theorem head?_body (h : m.Canonical) : m.body.head? ≠ some '-' := by
  cases m with
  | finite b =>
    intro signed
    obtain ⟨cs, split⟩ := List.head?_eq_some_iff.1 signed
    have positive := (valueOf_body h).2 ⟨b, rfl⟩
    have nothing : valueOf ('-' :: cs) = 0 := zero_mul _
    rw [split, nothing] at positive
    exact lt_irrefl 0 positive
  | zero | infinite | notANumber => decide

theorem body_injective (h : m.Canonical) (h' : k.Canonical) (same : m.body = k.body) : m = k := by
  have finite : (∃ b, m = .finite b) ↔ ∃ b, k = .finite b := by
    rw [← valueOf_body h, ← valueOf_body h', same]
  cases m with
  | finite b =>
    obtain ⟨c, rfl⟩ := finite.1 ⟨b, rfl⟩
    have here := (b.valueOf_shortest (h b rfl)).2
    have here' := (c.valueOf_shortest (h' c rfl)).2
    change b.shortest.text = c.shortest.text at same
    rw [same] at here
    exact congrArg Magnitude.finite ((h b rfl).eq_of_encloses (h' c rfl) here here')
  | zero | infinite | notANumber =>
    cases k with
    | finite c => exact absurd (finite.2 ⟨c, rfl⟩) (by simp)
    | zero | infinite | notANumber => first | rfl | exact absurd same (by decide)

/-! Bits -/

/-- The magnitude as the two fields of the bits below the sign. -/
def ofFields (field fraction : Nat) : Magnitude :=
  if field = 2047 then (if fraction = 0 then .infinite else .notANumber)
  else if field = 0 then
    if fraction = 0 then .zero else .finite ⟨fraction, -1074, false⟩
  else .finite ⟨2 ^ 52 + fraction, (field : Int) - 1075, fraction = 0 && field ≠ 1⟩

theorem ofBits_eq (bits : UInt64) :
    ofBits bits = ofFields (bits.toNat / 2 ^ 52 % 2 ^ 11) (bits.toNat % 2 ^ 52) := rfl

theorem canonical_ofFields {field fraction : Nat} (short : fraction < 2 ^ 52) :
    (ofFields field fraction).Canonical := by
  intro b same
  unfold ofFields at same
  split at same
  · split at same <;> cases same
  split at same
  · split at same
    · cases same
    · rename_i nonzero
      cases same
      exact ⟨Nat.pos_of_ne_zero nonzero, short.trans (by decide), le_rfl,
        fun above => absurd above (lt_irrefl _), ⟨nofun, fun least => absurd least.2 (lt_irrefl _)⟩⟩
  · rename_i normal
    cases same
    have least : -1074 < (field : Int) - 1075 ↔ field ≠ 1 := by omega
    refine ⟨Nat.add_pos_left (by decide) _, by dsimp only; omega, by dsimp only; omega,
      fun _ => Nat.le_add_right _ _, ?_⟩
    simp [least]

theorem canonical_ofBits (bits : UInt64) : (ofBits bits).Canonical :=
  canonical_ofFields (Nat.mod_lt _ (by decide))

theorem ofFields_injective {field field' fraction fraction' : Nat} (short : fraction < 2 ^ 52)
    (short' : fraction' < 2 ^ 52) (number : ofFields field fraction ≠ .notANumber)
    (same : ofFields field fraction = ofFields field' fraction') :
    field = field' ∧ fraction = fraction' := by
  grind [ofFields]

theorem ofBits_injective {bits bits' : UInt64} (number : ofBits bits ≠ .notANumber)
    (sign : bits.toNat / 2 ^ 63 = bits'.toNat / 2 ^ 63) (same : ofBits bits = ofBits bits') :
    bits = bits' := by
  rw [ofBits_eq] at number
  rw [ofBits_eq, ofBits_eq] at same
  obtain ⟨field, fraction⟩ := ofFields_injective (Nat.mod_lt _ (by decide)) (Nat.mod_lt _ (by decide))
    number same
  apply UInt64.toNat_inj.1
  have split (n : Nat) : n = n / 2 ^ 63 * 2 ^ 63 + n / 2 ^ 52 % 2 ^ 11 * 2 ^ 52 + n % 2 ^ 52 := by omega
  rw [split bits.toNat, split bits'.toNat, sign, field, fraction]

end Magnitude

theorem ofBits_ne_notANumber {x : Float} (h : x.isNaN = false) :
    Magnitude.ofBits x.toBits ≠ .notANumber := by
  intro unnumbered
  rw [Magnitude.ofBits_eq, Magnitude.ofFields] at unnumbered
  split at unnumbered
  · rename_i top
    split at unnumbered
    · cases unnumbered
    · rename_i payload
      have exponent : @unpackExponent .binary64 x.toBits.toBitVec = -1#_ := by
        apply BitVec.eq_of_toNat_eq
        rw [unpackExponent, BitVec.toNat_cast, BitVec.extractLsb_toNat, Nat.shiftRight_eq_div_pow]
        exact top
      have mantissa : @unpackMantissa .binary64 x.toBits.toBitVec ≠ 0#_ := by
        intro zero
        have value := congrArg BitVec.toNat zero
        rw [unpackMantissa, BitVec.toNat_cast, BitVec.extractLsb_toNat, Nat.shiftRight_zero] at value
        exact payload value
      have isNaN : (UnpackedFloat.unpack .binary64 x.toBits.toBitVec).isNaN = true := by
        rw [UnpackedFloat.unpack, exponent, if_pos rfl, if_neg mantissa]
        rfl
      exact absurd (h.symm.trans isNaN) (by decide)
  · split at unnumbered
    · split at unnumbered <;> cases unnumbered
    · cases unnumbered

/-! Texts of doubles -/

theorem textOfBits_eq {bits : UInt64} (number : Magnitude.ofBits bits ≠ .notANumber) :
    (textOfBits bits).toList =
      (if bits.toNat / 2 ^ 63 = 1 then ['-'] else []) ++ (Magnitude.ofBits bits).body := by
  have sign : (if bits.toNat / Nat.pow 2 63 = 1 then "-" else "").toList =
      if bits.toNat / 2 ^ 63 = 1 then ['-'] else [] := by
    change (if bits.toNat / 2 ^ 63 = 1 then "-" else "").toList = _
    split <;> rfl
  unfold textOfBits
  cases magnitude : Magnitude.ofBits bits with
  | notANumber => exact absurd magnitude number
  | finite b => rw [String.toList_append, String.toList_ofList, sign, Magnitude.body]
  | zero | infinite =>
    rw [String.toList_append, sign]
    rfl

/-- Doubles that are numbers have different texts. -/
theorem text_injective {x y : Float} (hx : x.isNaN = false) (hy : y.isNaN = false)
    (same : text x = text y) : x = y := by
  have number := ofBits_ne_notANumber hx
  have chars := congrArg String.toList same
  rw [text, text, textOfBits_eq number, textOfBits_eq (ofBits_ne_notANumber hy)] at chars
  have unsigned (bits : UInt64) {cs : List Char} : '-' :: cs ≠ (Magnitude.ofBits bits).body := fun signed =>
    Magnitude.head?_body (Magnitude.canonical_ofBits bits) (signed ▸ rfl)
  have low (bits : UInt64) : bits.toNat / 2 ^ 63 < 2 := Nat.div_lt_of_lt_mul bits.toNat_lt
  have sign : x.toBits.toNat / 2 ^ 63 = y.toBits.toNat / 2 ^ 63 := by
    have small := low x.toBits
    have small' := low y.toBits
    split at chars <;> split at chars
    · omega
    · exact absurd chars (unsigned y.toBits)
    · exact absurd chars.symm (unsigned x.toBits)
    · omega
  rw [sign] at chars
  have body := Magnitude.body_injective (Magnitude.canonical_ofBits x.toBits)
    (Magnitude.canonical_ofBits y.toBits) (List.append_cancel_left chars)
  exact Float.toBits_inj.1 (Magnitude.ofBits_injective number sign body)

end ScriptFrontend.Decimal
