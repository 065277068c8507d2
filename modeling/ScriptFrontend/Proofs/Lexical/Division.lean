import ScriptFrontend.Proofs.Lexical.Gaps
import ScriptFrontend.Proofs.Lexical.LongestMatch

/-!
# The scanner divides a text

Every text has exactly one division, and the scanner answers with it: with a token for each lexeme
and an end of input if the division covers the text, and otherwise with the place where it stops.
-/
namespace ScriptFrontend

theorem Location.after_start (text : List Char) : Location.start.after text = .behind text := by
  suffices ∀ reversed : List Char, Location.start.after reversed.reverse = .behind reversed.reverse by
    simpa using this text.reverse
  intro reversed
  induction reversed with
  | nil => rfl
  | cons c reversed ih =>
    rw [List.reverse_cons, after_append, ih]
    by_cases feed : c = '\n'
    · simp [behind, step, feed]
      omega
    · simp [behind, step, feed]
      omega

theorem Location.behind_after (front text : List Char) :
    (Location.behind front).after text = .behind (front ++ text) := by
  rw [← after_start, ← after_append, after_start]

namespace Scanning
variable {text : List Char} {d : Division}

theorem not_spells_nil (l : Lexeme) : ¬Spells [] l := by
  intro spelled
  obtain ⟨c, w, empty, -⟩ := taken_of_spells spelled
  cases empty

theorem exists_divides (text : List Char) : ∃ d, Divides text d := by
  have gap := (longestGap_iff text (splitGap false text).1).2 rfl
  have split := (splitGap_append false text).symm
  cases left : (splitGap false text).2 with
  | nil =>
    rw [left] at split
    refine ⟨_, .stop split gap fun word l front => ?_⟩
    rw [List.prefix_nil.1 front]
    exact not_spells_nil l
  | cons c cs =>
    rw [left] at split
    cases found : lexemeAt c cs with
    | error cause =>
      have sound := lexemeAt_sound c cs
      rw [found] at sound
      exact ⟨_, .stop split gap (refused_iff.2 (found.trans (congrArg _ sound)))⟩
    | ok taken =>
      obtain ⟨l, n⟩ := taken
      have shorter : cs.length - n < text.length := by
        rw [split, List.length_append, List.length_cons]
        omega
      obtain ⟨d, others⟩ := exists_divides (cs.drop n)
      have cut : c :: cs = c :: cs.take n ++ cs.drop n := by simp
      have longest := longestLexeme_of_lexemeAt found
      rw [cut] at split longest
      exact ⟨_, .cut split gap longest others⟩
termination_by text.length

theorem divides_unique {d' : Division} (h : Divides text d) (h' : Divides text d') : d' = d := by
  induction h generalizing d' with
  | stop split gap none =>
    cases h' with
    | stop split' gap' _ =>
      obtain ⟨rfl, rfl⟩ := longestGap_unique split gap split' gap'
      rfl
    | cut split' gap' longest _ =>
      obtain ⟨rfl, rfl⟩ := longestGap_unique split gap split' gap'
      exact absurd longest.2.1 (none _ _ longest.1)
  | cut split gap longest _ ih =>
    cases h' with
    | stop split' gap' none =>
      obtain ⟨rfl, rfl⟩ := longestGap_unique split gap split' gap'
      exact absurd longest.2.1 (none _ _ longest.1)
    | cut split' gap' longest' others =>
      obtain ⟨rfl, same⟩ := longestGap_unique split gap split' gap'
      rw [← same] at longest'
      obtain ⟨rfl, rfl⟩ := longestLexeme_unique longest longest'
      obtain rfl := List.append_cancel_left same
      rw [ih others]

theorem covered_append_left (h : Divides text d) : text = d.covered ++ d.left := by
  induction h with
  | stop split _ _ => simpa [Division.covered] using split
  | cut split _ _ _ ih =>
    rw [split, ih]
    simp [Division.covered]

/-- Where a division stops, a quote is not closed, or the character starts no lexeme. -/
theorem left_unquoted (h : Divides text d) {more : List Char} (left : d.left = '"' :: more) :
    '"' ∉ more := by
  induction h with
  | @stop text gap rest split _ none =>
    dsimp only at left
    subst left
    intro closed
    obtain ⟨content, behind, rfl, inside⟩ := List.eq_append_cons_of_mem closed
    exact none _ _ ⟨behind, by simp⟩ (.text inside)
  | cut _ _ _ _ ih => exact ih left

end Scanning

namespace Scanner
open Scanning

theorem scan_answer (s : Scanner) :
    s.scan.1 =
      match s.skipGap.rest with
      | [] => .ok [⟨none, s.skipGap.location⟩]
      | c :: cs =>
        match lexemeAt c cs with
        | .error cause => .error ⟨cause, s.skipGap.location⟩
        | .ok (l, n) =>
          (s.skipGap.advance (n + 1)).scan.1.map (⟨some l, s.skipGap.location⟩ :: ·) := by
  rw [scan]
  split
  · rename_i left
    rw [left]
  · rename_i c cs left
    simp only [left]
    cases lexemeAt c cs with
    | error cause => rfl
    | ok taken => rfl

theorem scan_state (s : Scanner) :
    s.scan.2 =
      match s.skipGap.rest with
      | [] => s.skipGap
      | c :: cs =>
        match lexemeAt c cs with
        | .error cause => s.skipGap.advance (refusedBehind cs cause + 1)
        | .ok (_, n) => (s.skipGap.advance (n + 1)).scan.2 := by
  rw [scan]
  split
  · rename_i left
    rw [left]
  · rename_i c cs left
    simp only [left]
    cases lexemeAt c cs with
    | error cause => rfl
    | ok taken => rfl

theorem skipGap_of_longestGap {text gap rest : List Char} (split : text = gap ++ rest)
    (longest : LongestGap text gap) (front : List Char) :
    (Scanner.mk text (.behind front)).skipGap = ⟨rest, .behind (front ++ gap)⟩ := by
  have known := (longestGap_iff text gap).1 longest
  have whole := splitGap_append false text
  rw [← known] at whole
  have behind : (splitGap false text).2 = rest := List.append_cancel_left (whole.trans split)
  rw [skipGap, ← known, behind, Location.behind_after]

end Scanner

namespace Scanning
variable {text gap word rest : List Char} {l : Lexeme} {d : Division}

/-- Behind the gap the scanner finds the lexeme, and behind the lexeme it stands before the rest. -/
theorem scanner_cut (split : text = gap ++ (word ++ rest)) (longestGap : LongestGap text gap)
    (longest : LongestLexeme (word ++ rest) word l) (front : List Char) :
    ∃ c cs n, (Scanner.mk text (.behind front)).skipGap = ⟨c :: cs, .behind (front ++ gap)⟩ ∧
      lexemeAt c cs = .ok (l, n) ∧
      (Scanner.mk (c :: cs) (.behind (front ++ gap))).advance (n + 1) =
        ⟨rest, .behind (front ++ gap ++ word)⟩ := by
  have skipped := Scanner.skipGap_of_longestGap split longestGap front
  obtain ⟨c, w, rfl, -⟩ := taken_of_spells longest.2.1
  obtain ⟨n, found, taken⟩ := longestLexeme_iff.1 longest
  change lexemeAt c (w ++ rest) = .ok (l, n) at found
  have word : w = (w ++ rest).take n := List.tail_eq_of_cons_eq taken
  have behind : rest = (w ++ rest).drop n := by
    have whole : (w ++ rest).take n ++ (w ++ rest).drop n = w ++ rest := List.take_append_drop n _
    rw [← word] at whole
    exact (List.append_cancel_left whole).symm
  refine ⟨c, w ++ rest, n, skipped, found, ?_⟩
  simp only [Scanner.advance, List.drop_succ_cons, List.take_succ_cons, ← word, ← behind,
    Location.behind_after]

theorem scan_cut (split : text = gap ++ (word ++ rest)) (longestGap : LongestGap text gap)
    (longest : LongestLexeme (word ++ rest) word l) (front : List Char) :
    (Scanner.mk text (.behind front)).scan.1 =
      (Scanner.mk rest (.behind (front ++ gap ++ word))).scan.1.map
        (⟨some l, .behind (front ++ gap)⟩ :: ·) := by
  obtain ⟨c, cs, n, skipped, found, behind⟩ := scanner_cut split longestGap longest front
  rw [Scanner.scan_answer, skipped]
  simp only [found, behind]

theorem scan_of_covered (h : Divides text d) (covers : d.left = []) (front : List Char) :
    (Scanner.mk text (.behind front)).scan.1 =
      .ok (tokensOf front d.cuts ++ [⟨none, .behind (front ++ text)⟩]) := by
  induction h generalizing front with
  | stop split longestGap _ =>
    dsimp only at covers
    subst covers
    have skipped := Scanner.skipGap_of_longestGap split longestGap front
    rw [List.append_nil] at split
    rw [Scanner.scan_answer, skipped, split]
    rfl
  | cut split longestGap longest _ ih =>
    rw [scan_cut split longestGap longest, ih covers, split]
    simp [tokensOf, Except.map]

/-- Where a division stops before the end of the text, the scanner refuses the text. -/
theorem scan_of_left (h : Divides text d) {c : Char} {more : List Char} (left : d.left = c :: more)
    (front : List Char) :
    (Scanner.mk text (.behind front)).scan.1 =
      .error ⟨if c = '"' then .unterminatedText else .unexpected c, .behind (front ++ d.covered)⟩ := by
  induction h generalizing front with
  | stop split longestGap none =>
    dsimp only at left
    subst left
    have skipped := Scanner.skipGap_of_longestGap split longestGap front
    rw [Scanner.scan_answer, skipped]
    simp only [refused_iff.1 none]
    rfl
  | cut split longestGap longest _ ih =>
    rw [scan_cut split longestGap longest, ih left]
    simp [Division.covered, Except.map]

theorem tokenize_division (source : String) :
    ∃ d, Divides source.toList d ∧ (∀ d', Divides source.toList d' → d' = d) ∧
      source.toList = d.covered ++ d.left ∧
      ((∃ tokens, tokenize source = .ok tokens) ↔ d.left = []) ∧
      (d.left = [] →
        tokenize source = .ok (tokensOf [] d.cuts ++ [⟨none, .behind source.toList⟩])) ∧
      ∀ c more, d.left = c :: more →
        ∃ e, tokenize source = .error e ∧ e.location = .behind d.covered ∧
          (c = '"' → '"' ∉ more ∧ e.cause.message = "Unterminated string literal") ∧
          (c ≠ '"' → e.cause.message = s!"Unexpected character: '{c}'") := by
  obtain ⟨d, divides⟩ := exists_divides source.toList
  have covered (empty : d.left = []) := scan_of_covered divides empty []
  have refused (c : Char) (more : List Char) (left : d.left = c :: more) :=
    scan_of_left divides left []
  refine ⟨d, divides, fun d' => divides_unique divides, covered_append_left divides, ?_, covered, ?_⟩
  · constructor
    · rintro ⟨tokens, accepted⟩
      cases left : d.left with
      | nil => rfl
      | cons c more =>
        have := (refused c more left).symm.trans accepted
        cases this
    · intro left
      exact ⟨_, covered left⟩
  · intro c more left
    refine ⟨_, refused c more left, rfl, ?_, ?_⟩
    · rintro rfl
      exact ⟨left_unquoted divides left, rfl⟩
    · intro other
      rw [if_neg other]
      rfl

end Scanning
end ScriptFrontend
