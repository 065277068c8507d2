import ScriptFrontend.Proofs.Lexical.Division

/-!
# The places of tokens ascend

Text moves a place forward, to a later column or to a later line. So the tokens of an accepted text
stand at places one behind the other, the end of the input behind them all.
-/
namespace ScriptFrontend

namespace Location

/-- Line by line, and by column within a line. -/
def Before (l m : Location) : Prop :=
  l.line < m.line ∨ l.line = m.line ∧ l.column < m.column

theorem Before.trans {l m n : Location} (h : l.Before m) (k : m.Before n) : l.Before n := by
  unfold Before at *
  omega

theorem Before.ne {l m : Location} (h : l.Before m) : l ≠ m := by
  rintro rfl
  unfold Before at h
  omega

theorem before_step (l : Location) (c : Char) : l.Before (l.step c) := by
  unfold step
  split
  · exact .inl (Nat.lt_succ_self _)
  · exact .inr ⟨rfl, Nat.lt_succ_self _⟩

theorem before_after (l : Location) {text : List Char} (nonempty : text ≠ []) :
    l.Before (l.after text) := by
  induction text generalizing l with
  | nil => exact absurd rfl nonempty
  | cons c text ih =>
    rw [after_cons]
    have first := l.before_step c
    cases text with
    | nil => exact first
    | cons d text => exact first.trans (ih (l.step c) (List.cons_ne_nil d text))

theorem before_behind (front : List Char) {text : List Char} (nonempty : text ≠ []) :
    (behind front).Before (behind (front ++ text)) := by
  rw [← behind_after]
  exact before_after _ nonempty

end Location

namespace Scanning
variable {text : List Char} {d : Division} {source : String} {tokens : List Token}

/-- The tokens of an accepted text are those of a division that covers it. -/
theorem exists_covering (accepted : tokenize source = .ok tokens) :
    ∃ d, Divides source.toList d ∧ d.left = [] ∧
      tokens = tokensOf [] d.cuts ++ [⟨none, .behind source.toList⟩] := by
  obtain ⟨d, divides⟩ := exists_divides source.toList
  cases left : d.left with
  | nil =>
    have found := scan_of_covered divides left []
    exact ⟨d, divides, left, Except.ok.inj (accepted.symm.trans found)⟩
  | cons c more =>
    have refused := scan_of_left divides left []
    cases accepted.symm.trans refused

theorem Divides.ascending (h : Divides text d) (front : List Char) :
    let tokens := tokensOf front d.cuts ++ [⟨none, .behind (front ++ text)⟩]
    (∀ t ∈ tokens, ∃ more, t.location = .behind (front ++ more)) ∧
      tokens.Pairwise fun t u => t.location.Before u.location := by
  induction h generalizing front with
  | @stop text gap left split _ _ =>
    refine ⟨fun t member => ⟨text, ?_⟩, List.pairwise_singleton _ _⟩
    rw [List.mem_singleton.1 member]
  | @cut text gap word rest l d split _ longest _ ih =>
    obtain ⟨places, ascending⟩ := ih (front ++ gap ++ word)
    have whole : front ++ text = front ++ gap ++ word ++ rest := by simp [split]
    have nonempty : word ≠ [] := by
      rintro rfl
      exact not_spells_nil l longest.2.1
    rw [← whole] at places ascending
    refine ⟨fun t member => ?_, List.pairwise_cons.2 ⟨fun u later => ?_, ascending⟩⟩
    · rcases List.mem_cons.1 member with rfl | later
      · exact ⟨gap, rfl⟩
      · obtain ⟨more, place⟩ := places t later
        exact ⟨gap ++ (word ++ more), by simpa using place⟩
    · obtain ⟨more, place⟩ := places u later
      have moved := Location.before_behind (front ++ gap) (List.append_ne_nil_of_left_ne_nil nonempty more)
      rwa [← List.append_assoc, ← place] at moved

theorem tokenize_ascending (accepted : tokenize source = .ok tokens) :
    tokens.Pairwise fun t u => t.location.Before u.location := by
  obtain ⟨d, divides, -, rfl⟩ := exists_covering accepted
  exact (divides.ascending []).2

end Scanning
end ScriptFrontend
