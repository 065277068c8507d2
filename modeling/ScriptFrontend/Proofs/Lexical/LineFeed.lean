import ScriptFrontend.Proofs.Lexical.Division

/-!
# Text behind a line feed

A line feed ends what the text before it has begun: no gap and no lexeme of an accepted text is read
differently because of it, and behind it the scanner stands as at the start of a text, only some
lines further down. So an accepted text in front adds its tokens and moves the others down.
-/
namespace ScriptFrontend

/-! Scanning across a line feed -/

namespace Scanning
variable {c : Char} {cs b : List Char}

theorem takeWhile_lineFeed {p : Char → Bool} (stops : p '\n' = false) (cs b : List Char) :
    (cs ++ '\n' :: b).takeWhile p = cs.takeWhile p := by
  induction cs with
  | nil => exact List.takeWhile_cons_of_neg (Bool.eq_false_iff.1 stops)
  | cons c cs ih =>
    cases taken : p c with
    | true => simp [taken, ih]
    | false => simp [taken]

theorem dropWhile_lineFeed {p : Char → Bool} (stops : p '\n' = false) (cs b : List Char) :
    (cs ++ '\n' :: b).dropWhile p = cs.dropWhile p ++ '\n' :: b := by
  induction cs with
  | nil => exact List.dropWhile_cons_of_neg (Bool.eq_false_iff.1 stops)
  | cons c cs ih =>
    cases taken : p c with
    | true => simp [taken, ih]
    | false => simp [taken]

theorem numberAt_lineFeed (c : Char) (cs b : List Char) :
    numberAt c (cs ++ '\n' :: b) = numberAt c cs := by
  have whole : (cs ++ '\n' :: b).takeWhile Decimal.isDigit = cs.takeWhile Decimal.isDigit :=
    takeWhile_lineFeed rfl cs b
  have behind : (cs ++ '\n' :: b).dropWhile Decimal.isDigit = cs.dropWhile Decimal.isDigit ++ '\n' :: b :=
    dropWhile_lineFeed rfl cs b
  by_cases point : (cs.dropWhile Decimal.isDigit).head? = some '.'
  · obtain ⟨more, cut⟩ := List.head?_eq_some_iff.1 point
    rw [cut, List.cons_append] at behind
    rw [numberAt_decimal behind, numberAt_decimal cut, whole, takeWhile_lineFeed rfl]
  · have none : ((cs ++ '\n' :: b).dropWhile Decimal.isDigit).head? ≠ some '.' := by
      rw [behind]
      cases left : cs.dropWhile Decimal.isDigit with
      | nil => simp
      | cons d more => simpa [left] using point
    rw [numberAt_integer none, numberAt_integer point, whole]

theorem wordAt_lineFeed (c : Char) (cs b : List Char) :
    wordAt c (cs ++ '\n' :: b) = wordAt c cs := by
  rw [wordAt, wordAt, takeWhile_lineFeed (isNamePart_of_blank _ (by simp))]

theorem symbolAt_lineFeed (c : Char) (cs b : List Char) :
    symbolAt c (cs ++ '\n' :: b) = symbolAt c cs := by
  cases cs with
  | nil => simp [symbolAt, ofPair?_of_blank c '\n' (by simp)]
  | cons d cs => rfl

theorem textAt_lineFeed {l : Lexeme} {n : Nat} (found : textAt cs = .ok (l, n)) (b : List Char) :
    textAt (cs ++ '\n' :: b) = .ok (l, n) := by
  by_cases closed : '"' ∈ cs
  · obtain ⟨content, rest, rfl, inside⟩ := List.eq_append_cons_of_mem closed
    rw [textAt_closed inside] at found
    rw [List.append_assoc, List.cons_append, textAt_closed inside, found]
  · rw [textAt_open closed] at found
    cases found

theorem lexemeAt_lineFeed {l : Lexeme} {n : Nat} (found : lexemeAt c cs = .ok (l, n)) (b : List Char) :
    lexemeAt c (cs ++ '\n' :: b) = .ok (l, n) := by
  rw [lexemeAt] at found ⊢
  rw [numberAt_lineFeed, wordAt_lineFeed, symbolAt_lineFeed]
  split
  · rename_i quote
    rw [if_pos quote] at found
    exact textAt_lineFeed found b
  · rename_i other
    rwa [if_neg other] at found

/-- A gap that ends before the line feed is the gap of the text in front. -/
theorem splitGap_inside {inComment : Bool} {a : List Char} (left : (splitGap inComment a).2 ≠ [])
    (b : List Char) :
    splitGap inComment (a ++ b) = ((splitGap inComment a).1, (splitGap inComment a).2 ++ b) := by
  induction a generalizing inComment with
  | nil => exact absurd rfl left
  | cons d a ih =>
    by_cases gap : (inComment || isGapChar d || d = '#') = true
    · simp only [splitGap, List.cons_append, gap, if_true] at left ⊢
      rw [ih left]
    · simp only [splitGap, List.cons_append, gap]
      rfl

/-- A text that is one gap is joined with the gap behind the line feed, whether it ends in a comment
or not. -/
theorem splitGap_across {inComment : Bool} {a : List Char} (left : (splitGap inComment a).2 = [])
    (b : List Char) :
    splitGap inComment (a ++ '\n' :: b) =
      (a ++ '\n' :: (splitGap false b).1, (splitGap false b).2) := by
  induction a generalizing inComment with
  | nil => cases inComment <;> simp [splitGap, isGapChar]
  | cons d a ih =>
    by_cases gap : (inComment || isGapChar d || d = '#') = true
    · simp only [splitGap, List.cons_append, gap, if_true] at left ⊢
      rw [ih left]
    · simp only [splitGap, gap] at left
      cases left

end Scanning

/-! Places further down -/

namespace Location

def down (k : Nat) (l : Location) : Location := ⟨l.line + k, l.column⟩

theorem down_step (k : Nat) (l : Location) (c : Char) : (l.down k).step c = (l.step c).down k := by
  unfold step
  split
  · simp [down]
    omega
  · rfl

theorem down_after (k : Nat) (l : Location) (text : List Char) :
    (l.down k).after text = (l.after text).down k := by
  induction text generalizing l with
  | nil => rfl
  | cons c text ih => rw [after_cons, after_cons, down_step, ih]

end Location

def Token.down (k : Nat) (t : Token) : Token := ⟨t.kind, t.location.down k⟩

def LexError.down (k : Nat) (e : LexError) : LexError := ⟨e.cause, e.location.down k⟩

/-- What a scan answers, with every place moved down. -/
def Scanner.answerDown (k : Nat) : Except LexError (List Token) → Except LexError (List Token)
  | .ok tokens => .ok (tokens.map (Token.down k))
  | .error e => .error (e.down k)

namespace Scanner
open Scanning

theorem scan_down (k : Nat) (s : Scanner) :
    (Scanner.mk s.rest (s.location.down k)).scan.1 = answerDown k s.scan.1 := by
  have skipped : (Scanner.mk s.rest (s.location.down k)).skipGap =
      ⟨s.skipGap.rest, s.skipGap.location.down k⟩ := by
    simp only [skipGap, Location.down_after]
  rw [scan_answer, scan_answer, skipped]
  dsimp only
  cases left : s.skipGap.rest with
  | nil => rfl
  | cons c cs =>
    dsimp only
    cases found : lexemeAt c cs with
    | error cause => rfl
    | ok taken =>
      obtain ⟨l, n⟩ := taken
      have shorter := advance_skipGap_length_lt left n
      have later := scan_down k (s.skipGap.advance (n + 1))
      simp only [advance, left, Location.down_after] at later ⊢
      rw [later]
      cases (Scanner.mk _ _).scan.1 <;> rfl
termination_by s.rest.length

theorem skipGap_inside {s : Scanner} (left : s.skipGap.rest ≠ []) (more : List Char) :
    (Scanner.mk (s.rest ++ more) s.location).skipGap =
      ⟨s.skipGap.rest ++ more, s.skipGap.location⟩ := by
  simp only [skipGap, splitGap_inside left]

theorem advance_inside {s : Scanner} {n : Nat} (within : n ≤ s.rest.length) (more : List Char) :
    (Scanner.mk (s.rest ++ more) s.location).advance n =
      ⟨(s.advance n).rest ++ more, (s.advance n).location⟩ := by
  simp only [advance, List.drop_append_of_le_length within, List.take_append_of_le_length within]

theorem skipGap_after (s : Scanner) (more : List Char) :
    s.skipGap.location.after (s.skipGap.rest ++ more) = s.location.after (s.rest ++ more) := by
  rw [skipGap, ← Location.after_append, ← List.append_assoc, splitGap_append]

theorem advance_after (s : Scanner) (n : Nat) (more : List Char) :
    (s.advance n).location.after ((s.advance n).rest ++ more) = s.location.after (s.rest ++ more) := by
  rw [advance, ← Location.after_append, ← List.append_assoc, List.take_append_drop]

theorem scan_congr {s t : Scanner} (h : s.skipGap = t.skipGap) : s.scan.1 = t.scan.1 := by
  rw [scan_answer, scan_answer, h]

/-- An accepted text gives its tokens, and the scan behind the line feed gives the others. -/
theorem scan_across {s : Scanner} {tokens : List Token} (accepted : s.scan.1 = .ok tokens) :
    ∃ front last, tokens = front ++ [last] ∧ last.kind = none ∧ (∀ t ∈ front, t.kind ≠ none) ∧
      ∀ b, (Scanner.mk (s.rest ++ '\n' :: b) s.location).scan.1 =
        (Scanner.mk b (s.location.after (s.rest ++ ['\n']))).scan.1.map (front ++ ·) := by
  rw [scan_answer] at accepted
  cases left : s.skipGap.rest with
  | nil =>
    rw [left] at accepted
    cases accepted
    refine ⟨[], _, rfl, rfl, List.forall_mem_nil _, fun b => ?_⟩
    have same : (Scanner.mk (s.rest ++ '\n' :: b) s.location).skipGap =
        (Scanner.mk b (s.location.after (s.rest ++ ['\n']))).skipGap := by
      simp only [skipGap, splitGap_across left, ← Location.after_append, List.append_assoc,
        List.singleton_append]
    rw [scan_congr same]
    cases (Scanner.mk b _).scan.1 <;> rfl
  | cons c cs =>
    rw [left] at accepted
    dsimp only at accepted
    cases found : lexemeAt c cs with
    | error cause =>
      rw [found] at accepted
      cases accepted
    | ok taken =>
      obtain ⟨l, n⟩ := taken
      rw [found] at accepted
      dsimp only at accepted
      have shorter := advance_skipGap_length_lt left n
      cases others : (s.skipGap.advance (n + 1)).scan.1 with
      | error e =>
        rw [others] at accepted
        cases accepted
      | ok tokens =>
        rw [others] at accepted
        cases accepted
        obtain ⟨front, last, rfl, ended, running, behind⟩ := scan_across others
        refine ⟨⟨some l, s.skipGap.location⟩ :: front, last, rfl, ended, ?_, fun b => ?_⟩
        · exact List.forall_mem_cons.2 ⟨Option.some_ne_none l, running⟩
        · have within : n + 1 ≤ s.skipGap.rest.length := by
            have sound := lexemeAt_sound c cs
            rw [found] at sound
            rw [left]
            exact Nat.succ_le_succ sound.1
          have skipped := skipGap_inside (left ▸ List.cons_ne_nil c cs) ('\n' :: b)
          have moved := advance_inside within ('\n' :: b)
          rw [scan_answer, skipped]
          rw [left, List.cons_append] at moved ⊢
          simp only [lexemeAt_lineFeed found b, moved]
          rw [behind, advance_after, skipGap_after]
          cases (Scanner.mk b _).scan.1 <;> rfl
termination_by s.rest.length

end Scanner

theorem Location.behind_lineFeed (a : List Char) :
    Location.behind (a ++ ['\n']) = Location.start.down (1 + a.count '\n') := by
  simp [behind, down, start]
  omega

/-- An accepted text in front, and a line feed, add tokens and move the answer down. -/
theorem tokenize_below {a : String} {tokens : List Token} (accepted : tokenize a = .ok tokens) :
    ∃ front last, tokens = front ++ [last] ∧ last.kind = none ∧ (∀ t ∈ front, t.kind ≠ none) ∧
      ∀ b : String, tokenize (a ++ "\n" ++ b) =
        (Scanner.answerDown (1 + a.toList.count '\n') (tokenize b)).map (front ++ ·) := by
  obtain ⟨front, last, cut, ended, running, across⟩ := Scanner.scan_across accepted
  refine ⟨front, last, cut, ended, running, fun b => ?_⟩
  have joined : Scanner.ofText (a ++ "\n" ++ b) = ⟨a.toList ++ '\n' :: b.toList, .start⟩ := by
    simp [Scanner.ofText, String.toList_append]
  have place : Location.start.after (a.toList ++ ['\n']) =
      Location.start.down (1 + a.toList.count '\n') := by
    rw [Location.after_start, Location.behind_lineFeed]
  rw [tokenize, joined, tokenize, ← Scanner.scan_down]
  exact place ▸ across b.toList

/-- The lines of tokens count from one. -/
theorem line_pos_of_tokenize {b : String} {tokens : List Token} (accepted : tokenize b = .ok tokens) :
    ∀ t ∈ tokens, 0 < t.location.line := by
  have moved : Scanner.answerDown 1 (Scanner.mk b.toList ⟨0, 1⟩).scan.1 = .ok tokens :=
    (Scanner.scan_down 1 ⟨b.toList, ⟨0, 1⟩⟩).symm.trans accepted
  cases above : (Scanner.mk b.toList ⟨0, 1⟩).scan.1 with
  | error e =>
    rw [above] at moved
    cases moved
  | ok tokens =>
    rw [above] at moved
    cases moved
    intro t member
    obtain ⟨u, -, rfl⟩ := List.mem_map.1 member
    exact Nat.succ_pos _

end ScriptFrontend
