import ScriptFrontend.Tree.Basic

/-!
# Characters of a written number

A number is written in visible characters: its text is made of digits, a sign, a point, the letter of
the exponent, or is one of the words for a double that is infinite or not a number. So it stands on
one line, and nothing in it ends a line.
-/
namespace ScriptFrontend

/-- No character of the text is a control character. -/
def Text.Visible (cs : List Char) : Prop := ∀ c ∈ cs, ' ' ≤ c

-- by the list, not by a search among all characters
instance (cs : List Char) : Decidable (Text.Visible cs) := List.decidableBAll (' ' ≤ ·) cs

namespace Text.Visible
variable {a b : List Char} {c : Char}

theorem append (h : Visible a) (h' : Visible b) : Visible (a ++ b) :=
  List.forall_mem_append.2 ⟨h, h'⟩

theorem cons (here : ' ' ≤ c) (h : Visible a) : Visible (c :: a) :=
  List.forall_mem_cons.2 ⟨here, h⟩

theorem sublist (h : Visible b) (part : a.Sublist b) : Visible a :=
  fun d mem => h d (part.subset mem)

theorem not_mem (h : Visible a) (control : c < ' ') : c ∉ a :=
  fun mem => Char.not_le.2 control (h c mem)

end Text.Visible

namespace Decimal
open Text (Visible)

theorem visible_digits {cs : List Char} (digits : ∀ c ∈ cs, c.isDigit = true) : Visible cs := by
  intro c mem
  have digit := digits c mem
  simp only [Char.isDigit, Bool.and_eq_true, decide_eq_true_eq] at digit
  exact Nat.le_trans (by decide) digit.1

theorem visible_toDigits (n : Nat) : Visible (Nat.toDigits 10 n) :=
  visible_digits fun _ mem => Nat.isDigit_of_mem_toDigits (by decide) (by decide) mem

theorem visible_int (i : Int) : Visible (toString i).toList := by
  cases i with
  | ofNat n =>
    change Visible n.repr.toList
    rw [Nat.toList_repr]
    exact visible_toDigits n
  | negSucc n =>
    change Visible ("-" ++ (n + 1).repr).toList
    rw [String.toList_append, Nat.toList_repr]
    exact .append (by decide) (visible_toDigits _)

theorem visible_zeros (n : Nat) : Visible (zeros n) :=
  visible_digits fun c mem => by rw [List.eq_of_mem_replicate mem]; rfl

namespace Digits

theorem visible_ofGrid (grid : Int) (d : Nat) : Visible (ofGrid grid d).digits := by
  intro c mem
  have trimmed := (List.dropWhile_sublist _).subset (List.mem_reverse.mp mem)
  exact visible_toDigits d c (List.mem_reverse.mp trimmed)

variable {d : Digits}

theorem visible_positional (plain : Visible d.digits) : Visible d.positional := by
  have front : Visible (d.digits.take d.point.toNat) := plain.sublist (List.take_sublist _ _)
  have back : Visible (d.digits.drop d.point.toNat) := plain.sublist (List.drop_sublist _ _)
  unfold positional
  dsimp only
  split
  · exact .cons (by decide) (.cons (by decide) (.append (visible_zeros _) plain))
  · split
    · exact .append (.append plain (visible_zeros _)) (by decide)
    · exact .append front (.cons (by decide) back)

theorem visible_scientific (plain : Visible d.digits) : Visible d.scientific := by
  have lead : Visible (d.digits.take 1) := plain.sublist (List.take_sublist _ _)
  have tail : Visible (d.digits.drop 1) := plain.sublist (List.drop_sublist _ _)
  unfold scientific
  dsimp only
  refine .append (.append lead ?_) (.cons (by decide) (visible_int _))
  split
  · exact List.forall_mem_nil _
  · exact .cons (by decide) tail

theorem visible_text (plain : Visible d.digits) : Visible d.text := by
  unfold text
  split
  · exact visible_positional plain
  · exact visible_scientific plain

end Digits

theorem Binary.visible_firstGrid (b : Binary) (n more : Nat) : Visible (b.firstGrid n more).digits := by
  induction more generalizing n with
  | zero => exact Digits.visible_ofGrid _ _
  | succ more ih =>
    rw [firstGrid]
    split
    · exact Digits.visible_ofGrid _ _
    · exact ih (n + 1)

theorem visible_text (x : Float) : Visible (text x).toList := by
  unfold text textOfBits
  generalize signed : (if x.toBits.toNat / Nat.pow 2 63 = 1 then "-" else "") = sign
  have plain : Visible sign.toList := by
    rw [← signed]
    split <;> decide
  dsimp only
  split
  · rw [String.toList_append]
    exact plain.append (by decide)
  · rename_i b _
    rw [String.toList_append, String.toList_ofList]
    exact plain.append (Digits.visible_text (b.visible_firstGrid 1 17))
  · rw [String.toList_append]
    exact plain.append (by decide)
  · decide

end Decimal
end ScriptFrontend
