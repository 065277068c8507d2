import ScriptFrontend.Decimal.Notation
import ScriptFrontend.Decimal.Reader
import ScriptFrontend.Proofs.Decimal.Intervals

/-!
# Values of written decimals

Digits around a point, with or without a power of ten, are read as a rational number. However the
digits of a double are laid out, they are read as the number that they stand for.
-/
namespace ScriptFrontend.Decimal
variable {cs ds es tail : List Char}

/-! Digits -/

theorem natOfDigits_append (ds es : List Char) :
    natOfDigits (ds ++ es) = natOfDigits ds * 10 ^ es.length + natOfDigits es := by
  induction es using List.reverseRecOn with
  | nil => simp [natOfDigits]
  | append_singleton es e ih =>
    have last (cs : List Char) : natOfDigits (cs ++ [e]) = 10 * natOfDigits cs + digitValue e := by
      rw [natOfDigits, List.foldl_append]
      rfl
    rw [← List.append_assoc, last, last, ih, List.length_append, List.length_singleton, Nat.pow_succ]
    ring

theorem natOfDigits_zeros (n : Nat) : natOfDigits (zeros n) = 0 := by
  induction n with
  | zero => rfl
  | succ n ih =>
    rw [zeros, List.replicate_succ', natOfDigits_append, ← zeros, ih]
    rfl

theorem natOfDigits_digitsOf (n : Nat) : natOfDigits (digitsOf n) = n := Nat.ofDigitChars_ten_toDigits

theorem isDigit_of_mem_digitsOf {n : Nat} {c : Char} (mem : c ∈ digitsOf n) : isDigit c = true := by
  have digit := Nat.isDigit_of_mem_toDigits (by decide) (by decide) mem
  simpa [isDigit, Char.isDigit, Char.le_def] using digit

namespace Digits

def value (d : Digits) : ℚ := natOfDigits d.digits * 10 ^ (d.point - d.digits.length)

theorem exists_ofGrid (grid : Int) (n : Nat) :
    ∃ k, digitsOf n = (ofGrid grid n).digits ++ zeros k := by
  have split : (digitsOf n).reverse.takeWhile (· = '0') ++ (digitsOf n).reverse.dropWhile (· = '0') =
      (digitsOf n).reverse := List.takeWhile_append_dropWhile
  have trailing : (digitsOf n).reverse.takeWhile (· = '0') =
      zeros ((digitsOf n).reverse.takeWhile (· = '0')).length :=
    List.eq_replicate_of_mem fun c mem => of_decide_eq_true (List.all_eq_true.1 List.all_takeWhile c mem)
  refine ⟨((digitsOf n).reverse.takeWhile (· = '0')).length, ?_⟩
  have whole := congrArg List.reverse split
  rw [List.reverse_append, List.reverse_reverse, trailing, zeros, List.reverse_replicate] at whole
  exact whole.symm

theorem value_ofGrid (grid : Int) (n : Nat) : (ofGrid grid n).value = n * 10 ^ grid := by
  obtain ⟨k, split⟩ := exists_ofGrid grid n
  have number := natOfDigits_digitsOf n
  have count : (ofGrid grid n).point = grid + ((ofGrid grid n).digits.length + k : Nat) := by
    change grid + ((digitsOf n).length : Int) = _
    rw [split, List.length_append, zeros, List.length_replicate]
  rw [split, natOfDigits_append, natOfDigits_zeros, zeros, List.length_replicate] at number
  have exponent : grid + ((ofGrid grid n).digits.length + k : Nat) - ((ofGrid grid n).digits.length : Int) =
      k + grid := by
    push_cast
    ring
  rw [value, count, exponent, zpow_add₀ (by norm_num), zpow_natCast, ← mul_assoc]
  congr 1
  exact_mod_cast number

end Digits

/-! Decimals read from their text -/

def exponentOf : List Char → Int
  | 'e' :: power => (String.ofList power).toInt?.getD 0
  | _ => 0

/-- Digits, possibly a point and more digits, and possibly a power of ten. -/
def valueOf (cs : List Char) : ℚ :=
  match cs.dropWhile isDigit with
  | '.' :: more =>
    natOfDigits (cs.takeWhile isDigit ++ more.takeWhile isDigit) *
      10 ^ (exponentOf (more.dropWhile isDigit) - (more.takeWhile isDigit).length)
  | rest => natOfDigits (cs.takeWhile isDigit) * 10 ^ exponentOf rest

theorem ends_digits {c : Char} (mark : isDigit c = false) (cs : List Char) :
    ∀ d ∈ (c :: cs).head?, isDigit d = false := by
  intro d head
  cases head
  exact mark

theorem takeWhile_digits (digits : ∀ c ∈ ds, isDigit c = true)
    (ends : ∀ c ∈ tail.head?, isDigit c = false) :
    (ds ++ tail).takeWhile isDigit = ds ∧ (ds ++ tail).dropWhile isDigit = tail := by
  rw [List.takeWhile_append_of_pos digits, List.dropWhile_append_of_pos digits]
  cases tail with
  | nil => simp
  | cons c tail => simp [ends c rfl]

theorem valueOf_point (whole : ∀ c ∈ ds, isDigit c = true) (fraction : ∀ c ∈ es, isDigit c = true)
    (ends : ∀ c ∈ tail.head?, isDigit c = false) :
    valueOf (ds ++ '.' :: (es ++ tail)) = natOfDigits (ds ++ es) * 10 ^ (exponentOf tail - es.length) := by
  obtain ⟨front, behind⟩ := takeWhile_digits whole (ends_digits (c := '.') rfl (es ++ tail))
  obtain ⟨front', behind'⟩ := takeWhile_digits fraction ends
  simp only [valueOf, front, behind, front', behind']

theorem valueOf_exponent (whole : ∀ c ∈ ds, isDigit c = true) (power : List Char) :
    valueOf (ds ++ 'e' :: power) = natOfDigits ds * 10 ^ exponentOf ('e' :: power) := by
  obtain ⟨front, behind⟩ := takeWhile_digits whole (ends_digits (c := 'e') rfl power)
  simp only [valueOf, front, behind]
  rfl

namespace Digits
variable {d : Digits}

theorem isDigit_of_mem_zeros {n : Nat} {c : Char} (mem : c ∈ zeros n) : isDigit c = true := by
  rw [List.eq_of_mem_replicate mem]
  rfl

theorem valueOf_positional (digits : ∀ c ∈ d.digits, isDigit c = true) :
    valueOf d.positional = d.value := by
  have unpowered : exponentOf [] = 0 := rfl
  have zero : natOfDigits ['0'] = 0 := rfl
  have zeroDigit : ∀ c ∈ ['0'], isDigit c = true := List.all_eq_true.1 rfl
  have noTail : ∀ c ∈ ([] : List Char).head?, isDigit c = false := nofun
  unfold positional
  dsimp only
  split
  · have fraction : ∀ c ∈ zeros (-d.point).toNat ++ d.digits, isDigit c = true :=
      List.forall_mem_append.2 ⟨fun c => isDigit_of_mem_zeros, digits⟩
    have read := valueOf_point zeroDigit fraction noTail
    have number : natOfDigits (['0'] ++ (zeros (-d.point).toNat ++ d.digits)) = natOfDigits d.digits := by
      rw [natOfDigits_append, natOfDigits_append, natOfDigits_zeros, zero, Nat.zero_mul, Nat.zero_mul,
        Nat.zero_add, Nat.zero_add]
    have exponent : (0 : Int) - (zeros (-d.point).toNat ++ d.digits).length =
        d.point - d.digits.length := by
      rw [List.length_append, zeros, List.length_replicate]
      omega
    rw [List.append_nil, unpowered, number, exponent] at read
    exact read
  · split
    · have whole : ∀ c ∈ d.digits ++ zeros (d.point.toNat - d.digits.length), isDigit c = true :=
        List.forall_mem_append.2 ⟨digits, fun c => isDigit_of_mem_zeros⟩
      have read := valueOf_point whole zeroDigit noTail
      have number : natOfDigits (d.digits ++ zeros (d.point.toNat - d.digits.length) ++ ['0']) =
          natOfDigits d.digits * 10 ^ (d.point.toNat - d.digits.length + 1) := by
        rw [natOfDigits_append, natOfDigits_append, natOfDigits_zeros, zero, zeros, List.length_replicate,
          List.length_singleton, Nat.add_zero, Nat.add_zero, Nat.mul_assoc, pow_one, ← Nat.pow_succ]
      have exponent : ((d.point.toNat - d.digits.length + 1 : Nat) : Int) + (0 - 1) =
          d.point - d.digits.length := by omega
      rw [unpowered, number, List.length_singleton, Nat.cast_one, Nat.cast_mul, Nat.cast_pow,
        Nat.cast_ofNat, ← zpow_natCast, mul_assoc, ← zpow_add₀ (by norm_num), exponent] at read
      exact read
    · have whole : ∀ c ∈ d.digits.take d.point.toNat, isDigit c = true := fun c mem =>
        digits c (List.mem_of_mem_take mem)
      have fraction : ∀ c ∈ d.digits.drop d.point.toNat, isDigit c = true := fun c mem =>
        digits c (List.mem_of_mem_drop mem)
      have read := valueOf_point whole fraction noTail
      have exponent : (0 : Int) - (d.digits.drop d.point.toNat).length = d.point - d.digits.length := by
        rw [List.length_drop]
        omega
      rw [List.append_nil, unpowered, List.take_append_drop, exponent] at read
      exact read

theorem valueOf_scientific (digits : ∀ c ∈ d.digits, isDigit c = true) (filled : d.digits ≠ []) :
    valueOf d.scientific = d.value := by
  obtain ⟨c, cs, split⟩ := List.exists_cons_of_ne_nil filled
  rw [split] at digits
  obtain ⟨first, others⟩ := List.forall_mem_cons.1 digits
  have lead : ∀ e ∈ [c], isDigit e = true := by simpa using first
  have power : exponentOf ('e' :: (toString (d.point - 1)).toList) = d.point - 1 := by
    rw [exponentOf, String.ofList_toList, Int.toString_eq_repr, Int.toInt?_repr, Option.getD_some]
  unfold scientific
  dsimp only
  rw [value, split, List.take_succ_cons, List.take_zero, List.drop_succ_cons, List.drop_zero]
  split
  · rename_i single
    have read := valueOf_exponent lead (toString (d.point - 1)).toList
    rw [single, List.append_nil, List.length_singleton]
    rw [power] at read
    exact read
  · have read :=
      valueOf_point lead others (ends_digits (c := 'e') rfl (toString (d.point - 1)).toList)
    have exponent : d.point - 1 - (cs.length : Int) = d.point - ((c :: cs).length : Nat) := by
      rw [List.length_cons]
      push_cast
      ring
    rw [power, exponent] at read
    rw [List.append_assoc, List.cons_append]
    exact read

end Digits

end ScriptFrontend.Decimal
