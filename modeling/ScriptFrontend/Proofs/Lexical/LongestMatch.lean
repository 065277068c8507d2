import ScriptFrontend.Proofs.Lexical.Lexemes

/-!
# The longest lexeme

What the scanner takes is spelled in front of the text. As it takes at least every spelling there,
it takes the longest one, and it refuses a text only if none is there.
-/
namespace ScriptFrontend
namespace Scanning
variable {c : Char} {w cs rest word : List Char} {l : Lexeme}

/-- What may come out in front of a text: a lexeme that is spelled there, or the reason why none is. -/
def Sound (c : Char) (cs : List Char) : Except LexCause (Lexeme × Nat) → Prop
  | .ok (l, n) => n ≤ cs.length ∧ Spells (c :: cs.take n) l
  | .error cause => cause = if c = '"' then .unterminatedText else .unexpected c

theorem textAt_sound (cs : List Char) : Sound '"' cs (textAt cs) := by
  by_cases closed : '"' ∈ cs
  · obtain ⟨content, rest, rfl, inside⟩ := List.eq_append_cons_of_mem closed
    rw [textAt_closed inside]
    refine ⟨by simp, ?_⟩
    rw [List.take_length_add_append]
    exact .text inside
  · rw [textAt_open closed]
    rfl

theorem numberAt_sound (h : Decimal.isDigit c = true) (cs : List Char) :
    Sound c cs (.ok (numberAt c cs)) := by
  have whole : ∀ d ∈ c :: cs.takeWhile Decimal.isDigit, Decimal.isDigit d = true :=
    List.forall_mem_cons.2 ⟨h, List.all_eq_true.1 List.all_takeWhile⟩
  have split : cs.takeWhile Decimal.isDigit ++ cs.dropWhile Decimal.isDigit = cs :=
    List.takeWhile_append_dropWhile
  by_cases point : (cs.dropWhile Decimal.isDigit).head? = some '.'
  · obtain ⟨more, behind⟩ := List.head?_eq_some_iff.1 point
    rw [numberAt_decimal behind]
    rw [behind] at split
    have places := (List.takeWhile_prefix Decimal.isDigit (l := more)).length_le
    have taken : (cs.takeWhile Decimal.isDigit ++ '.' :: more).take
          ((cs.takeWhile Decimal.isDigit).length + 1 + (more.takeWhile Decimal.isDigit).length) =
        cs.takeWhile Decimal.isDigit ++ '.' :: more.takeWhile Decimal.isDigit := by
      rw [Nat.add_assoc, List.take_length_add_append, Nat.add_comm 1, List.take_succ_cons, take_takeWhile]
    rw [split] at taken
    refine ⟨?_, ?_⟩
    · have count := congrArg List.length split
      simp only [List.length_append, List.length_cons] at count
      omega
    · rw [taken]
      exact .decimal (by simp) whole (List.all_eq_true.1 List.all_takeWhile)
  · rw [numberAt_integer point]
    refine ⟨(List.takeWhile_prefix _).length_le, ?_⟩
    rw [take_takeWhile]
    exact .integer (by simp) whole

theorem wordAt_sound (h : isNameStart c = true) (cs : List Char) : Sound c cs (.ok (wordAt c cs)) := by
  refine ⟨(List.takeWhile_prefix isNamePart).length_le, ?_⟩
  rw [take_takeWhile]
  exact spells_ofWord h (List.all_eq_true.1 List.all_takeWhile)

theorem symbolAt_sound (h : c ≠ '"') (cs : List Char) : Sound c cs (symbolAt c cs) := by
  unfold symbolAt
  split
  · rename_i s paired
    obtain ⟨d, head, pair⟩ := Option.bind_eq_some_iff.1 paired
    obtain ⟨rest, rfl⟩ := List.head?_eq_some_iff.1 head
    refine ⟨by simp, ?_⟩
    have spelled := Spells.symbol s
    rwa [spelling_of_ofPair? pair] at spelled
  · split
    · rename_i s single
      refine ⟨Nat.zero_le _, ?_⟩
      have spelled := Spells.symbol s
      rwa [spelling_of_ofChar? single] at spelled
    · exact (if_neg h).symm

theorem lexemeAt_sound (c : Char) (cs : List Char) : Sound c cs (lexemeAt c cs) := by
  unfold lexemeAt
  split
  · rename_i quote
    exact quote ▸ textAt_sound cs
  split
  · exact numberAt_sound ‹_› cs
  split
  · exact wordAt_sound ‹_› cs
  · exact symbolAt_sound ‹_› cs

/-- A spelling in front of a text is found, or a longer one is. -/
theorem lexemeAt_of_prefix (spelled : Spells word l) (front : word <+: c :: cs) :
    ∃ k n, lexemeAt c cs = .ok (k, n) ∧ word.length ≤ n + 1 := by
  obtain ⟨rest, cut⟩ := front
  obtain ⟨d, w, rfl, taken⟩ := taken_of_spells spelled
  cases cut
  obtain ⟨k, n, found, long, -⟩ := taken rest
  exact ⟨k, n, found, Nat.succ_le_succ long⟩

theorem longestLexeme_unique {text word' : List Char} {k : Lexeme} (h : LongestLexeme text word l)
    (h' : LongestLexeme text word' k) : word = word' ∧ l = k := by
  obtain ⟨front, spelled, longest⟩ := h
  obtain ⟨front', spelled', longest'⟩ := h'
  have le := longest _ _ front' spelled'
  have ge := longest' _ _ front spelled
  have same := (List.prefix_of_prefix_length_le front front' ge).eq_of_length (Nat.le_antisymm ge le)
  subst same
  exact ⟨rfl, spells_functional spelled spelled'⟩

theorem longestLexeme_of_lexemeAt {n : Nat} (found : lexemeAt c cs = .ok (l, n)) :
    LongestLexeme (c :: cs) (c :: cs.take n) l := by
  have sound := lexemeAt_sound c cs
  rw [found] at sound
  refine ⟨(List.prefix_cons_inj c).2 (List.take_prefix n cs), sound.2, fun other k front spelled => ?_⟩
  obtain ⟨k', n', found', long⟩ := lexemeAt_of_prefix spelled front
  rw [found] at found'
  cases found'
  rwa [List.length_cons, List.length_take, Nat.min_eq_left sound.1]

theorem longestLexeme_iff :
    LongestLexeme (c :: cs) word l ↔ ∃ n, lexemeAt c cs = .ok (l, n) ∧ word = c :: cs.take n := by
  constructor
  · intro longest
    obtain ⟨k, n, found, -⟩ := lexemeAt_of_prefix longest.2.1 longest.1
    obtain ⟨rfl, rfl⟩ := longestLexeme_unique longest (longestLexeme_of_lexemeAt found)
    exact ⟨n, found, rfl⟩
  · rintro ⟨n, found, rfl⟩
    exact longestLexeme_of_lexemeAt found

theorem refused_iff :
    (∀ word l, word <+: c :: cs → ¬Spells word l) ↔
      lexemeAt c cs = .error (if c = '"' then .unterminatedText else .unexpected c) := by
  have sound := lexemeAt_sound c cs
  constructor
  · intro none
    cases found : lexemeAt c cs with
    | ok taken =>
      obtain ⟨l, n⟩ := taken
      rw [found] at sound
      exact absurd sound.2 (none _ _ ((List.prefix_cons_inj c).2 (List.take_prefix n cs)))
    | error cause =>
      rw [found] at sound
      exact congrArg _ sound
  · intro refused word l front spelled
    obtain ⟨k, n, found, -⟩ := lexemeAt_of_prefix spelled front
    rw [refused] at found
    cases found

end Scanning
end ScriptFrontend
