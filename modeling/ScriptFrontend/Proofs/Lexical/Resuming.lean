import ScriptFrontend.Proofs.Lexical.Ascending

/-!
# Scans that are resumed

A scan that is refused leaves the scanner right behind what it refused, and the next one goes on
there: it answers as a scan of what is left, with its places counted on. So refusals come from places
one behind the other, at most one for each character of the text. The first scan that is accepted
leaves nothing, and every later one finds the end of the input again.
-/
namespace ScriptFrontend

/-! Places counted on -/

namespace Location

/-- A place in a part of a text, counted in the whole text; the part starts at `base`. -/
def countedFrom (base l : Location) : Location :=
  if l.line = 1 then ⟨base.line, base.column + (l.column - 1)⟩
  else ⟨base.line + (l.line - 1), l.column⟩

theorem countedFrom_start (base : Location) : base.countedFrom start = base := rfl

theorem countedFrom_step (base : Location) {l : Location} (line : 0 < l.line) (column : 0 < l.column)
    (c : Char) : base.countedFrom (l.step c) = (base.countedFrom l).step c := by
  by_cases feed : c = '\n'
  · have below : ¬l.line + 1 = 1 := by omega
    rw [step, step, if_pos feed, if_pos feed, countedFrom, countedFrom, if_neg below]
    split
    · rename_i first
      rw [first]
      rfl
    · simp only [mk.injEq, and_true]
      omega
  · rw [step, step, if_neg feed, if_neg feed, countedFrom, countedFrom]
    split
    · simp only [mk.injEq, true_and]
      omega
    · rfl

theorem countedFrom_after (base : Location) {l : Location} (line : 0 < l.line) (column : 0 < l.column)
    (text : List Char) : base.countedFrom (l.after text) = (base.countedFrom l).after text := by
  induction text generalizing l with
  | nil => rfl
  | cons c text ih =>
    have line' : 0 < (l.step c).line := by
      unfold step
      split
      · exact Nat.succ_pos _
      · exact line
    have column' : 0 < (l.step c).column := by
      unfold step
      split
      · exact Nat.one_pos
      · exact Nat.succ_pos _
    rw [after_cons, after_cons, ih line' column', countedFrom_step base line column]

theorem behind_countedFrom (front text : List Char) :
    (behind front).countedFrom (behind text) = behind (front ++ text) := by
  have counted := countedFrom_after (behind front) (l := start) Nat.one_pos Nat.one_pos text
  rw [after_start, countedFrom_start, behind_after] at counted
  exact counted

end Location

def Token.countedFrom (base : Location) (t : Token) : Token := ⟨t.kind, base.countedFrom t.location⟩

def LexError.countedFrom (base : Location) (e : LexError) : LexError :=
  ⟨e.cause, base.countedFrom e.location⟩

/-- What a scan of a part answers, with every place counted in the whole text. -/
def Scanner.answerFrom (base : Location) :
    Except LexError (List Token) → Except LexError (List Token)
  | .ok tokens => .ok (tokens.map (Token.countedFrom base))
  | .error e => .error (e.countedFrom base)

/-! One scan -/

namespace Scanning
variable {text front rest gap word : List Char} {l : Lexeme} {d : Division}

theorem tokensOf_countedFrom (front before : List Char) (cuts : List Cut) :
    (tokensOf before cuts).map (Token.countedFrom (.behind front)) =
      tokensOf (front ++ before) cuts := by
  induction cuts generalizing before with
  | nil => rfl
  | cons c cuts ih =>
    have here : Token.countedFrom (.behind front) ⟨some c.lexeme, .behind (before ++ c.gap)⟩ =
        ⟨some c.lexeme, .behind (front ++ before ++ c.gap)⟩ := by
      rw [Token.countedFrom, Location.behind_countedFrom, List.append_assoc]
    rw [tokensOf, List.map_cons, ih, here, tokensOf, ← List.append_assoc, ← List.append_assoc]

/-- A scan in the midst of a text answers as one that starts there, with its places counted on. -/
theorem scan_countedFrom (front rest : List Char) :
    (Scanner.mk rest (.behind front)).scan.1 =
      Scanner.answerFrom (.behind front) (tokenize (String.ofList rest)) := by
  obtain ⟨d, divides⟩ := exists_divides rest
  have fresh : tokenize (String.ofList rest) = (Scanner.mk rest (.behind [])).scan.1 := by
    rw [tokenize, Scanner.ofText, String.toList_ofList]
    rfl
  rw [fresh]
  cases left : d.left with
  | nil =>
    rw [scan_of_covered divides left, scan_of_covered divides left, Scanner.answerFrom,
      List.map_append, tokensOf_countedFrom, List.append_nil, List.map_singleton, Token.countedFrom,
      Location.behind_countedFrom, List.nil_append]
  | cons c more =>
    rw [scan_of_left divides left, scan_of_left divides left, Scanner.answerFrom,
      LexError.countedFrom, Location.behind_countedFrom, List.nil_append]

/-- What a refusal takes from the front of a text, and what it leaves: a character that starts no
lexeme, or the whole text if the quote in front is not closed. -/
inductive Refused : LexCause → List Char → List Char → Prop where
  | character {c : Char} {more : List Char} : c ≠ '"' → Refused (.unexpected c) [c] more
  | openText {content : List Char} : '"' ∉ content → Refused .unterminatedText ('"' :: content) []

theorem Refused.ne_nil {cause : LexCause} {refused more : List Char} (h : Refused cause refused more) :
    refused ≠ [] := by
  cases h <;> exact List.cons_ne_nil _ _

theorem state_cut (split : text = gap ++ (word ++ rest)) (longestGap : LongestGap text gap)
    (longest : LongestLexeme (word ++ rest) word l) (front : List Char) :
    (Scanner.mk text (.behind front)).scan.2 =
      (Scanner.mk rest (.behind (front ++ gap ++ word))).scan.2 := by
  obtain ⟨c, cs, n, skipped, found, behind⟩ := scanner_cut split longestGap longest front
  rw [Scanner.scan_state, skipped]
  simp only [found, behind]

theorem state_of_covered (h : Divides text d) (covers : d.left = []) (front : List Char) :
    (Scanner.mk text (.behind front)).scan.2 = ⟨[], .behind (front ++ text)⟩ := by
  induction h generalizing front with
  | stop split longestGap _ =>
    dsimp only at covers
    subst covers
    have skipped := Scanner.skipGap_of_longestGap split longestGap front
    rw [List.append_nil] at split
    rw [Scanner.scan_state, skipped, split]
  | cut split longestGap longest _ ih =>
    rw [state_cut split longestGap longest, ih covers, split]
    simp

theorem state_of_left (h : Divides text d) {c : Char} {more : List Char} (left : d.left = c :: more)
    (front : List Char) :
    (Scanner.mk text (.behind front)).scan.2 =
      (Scanner.mk d.left (.behind (front ++ d.covered))).advance
        (refusedBehind more (if c = '"' then .unterminatedText else .unexpected c) + 1) := by
  induction h generalizing front with
  | stop split longestGap none =>
    dsimp only at left
    subst left
    have skipped := Scanner.skipGap_of_longestGap split longestGap front
    rw [Scanner.scan_state, skipped]
    simp only [refused_iff.1 none]
    rfl
  | cut split longestGap longest _ ih =>
    rw [state_cut split longestGap longest, ih left]
    simp [Division.covered]

/-- A refusal comes from one place, takes what is refused there, and leaves the scanner behind it. -/
theorem scan_refused {front rest : List Char} {e : LexError}
    (refusal : (Scanner.mk rest (.behind front)).scan.1 = .error e) :
    ∃ passed refused more, Refused e.cause refused more ∧ rest = passed ++ (refused ++ more) ∧
      e.location = .behind (front ++ passed) ∧
      (Scanner.mk rest (.behind front)).scan.2 = ⟨more, .behind (front ++ passed ++ refused)⟩ := by
  obtain ⟨d, divides⟩ := exists_divides rest
  have whole := covered_append_left divides
  cases left : d.left with
  | nil =>
    rw [scan_of_covered divides left] at refusal
    cases refusal
  | cons c more =>
    rw [scan_of_left divides left] at refusal
    cases refusal
    have state := state_of_left divides left front
    have unquoted (quote : d.left = '"' :: more) : '"' ∉ more := left_unquoted divides quote
    rw [left] at whole state unquoted
    by_cases quote : c = '"'
    · subst quote
      refine ⟨d.covered, '"' :: more, [], .openText (unquoted rfl), by simpa using whole, rfl, ?_⟩
      rw [state, if_pos rfl, refusedBehind, Scanner.advance, ← List.length_cons, List.drop_length,
        List.take_length, Location.behind_after]
    · rw [if_neg quote] at state ⊢
      refine ⟨d.covered, [c], more, .character quote, whole, rfl, ?_⟩
      rw [state, refusedBehind, Scanner.advance, Location.behind_after]
      rfl

/-- A text that is accepted ends with the end of the input, and nothing of it is left. -/
theorem scan_accepted {front rest : List Char} {tokens : List Token}
    (accepted : (Scanner.mk rest (.behind front)).scan.1 = .ok tokens) :
    tokens.getLast? = some ⟨none, .behind (front ++ rest)⟩ ∧
      (Scanner.mk rest (.behind front)).scan.2 = ⟨[], .behind (front ++ rest)⟩ := by
  obtain ⟨d, divides⟩ := exists_divides rest
  cases left : d.left with
  | nil =>
    rw [scan_of_covered divides left] at accepted
    cases accepted
    exact ⟨List.getLast?_concat, state_of_covered divides left front⟩
  | cons c more =>
    rw [scan_of_left divides left] at accepted
    cases accepted

end Scanning

/-! Scan after scan -/

namespace Scanner
open Scanning
variable {text : List Char} {s : Scanner}

/-- The scanner behind a number of scans. -/
def resumed (s : Scanner) : Nat → Scanner
  | 0 => s
  | n + 1 => s.scan.2.resumed n

theorem resumed_add (s : Scanner) (m n : Nat) : s.resumed (m + n) = (s.resumed m).resumed n := by
  induction m generalizing s with
  | zero => rw [Nat.zero_add]; rfl
  | succ m ih => rw [Nat.succ_add]; exact ih s.scan.2

theorem getElem?_scans (s : Scanner) {calls i : Nat} (within : i < calls) :
    (s.scans calls)[i]? = some (s.resumed i).scan.1 := by
  induction calls generalizing s i with
  | zero => exact absurd within (Nat.not_lt_zero i)
  | succ calls ih =>
    cases i with
    | zero => rfl
    | succ i => exact ih s.scan.2 (Nat.lt_of_succ_lt_succ within)

/-- The scanner stands in a text, with the part before it behind it. -/
def StandsIn (text : List Char) (s : Scanner) : Prop :=
  ∃ front, text = front ++ s.rest ∧ s.location = .behind front

theorem StandsIn.scan (h : s.StandsIn text) : s.scan.2.StandsIn text := by
  obtain ⟨front, whole, place⟩ := h
  obtain ⟨rest, location⟩ := s
  dsimp only at whole place
  subst place
  cases answer : (Scanner.mk rest (.behind front)).scan.1 with
  | ok tokens =>
    rw [(scan_accepted answer).2, ← whole]
    exact ⟨text, (List.append_nil text).symm, rfl⟩
  | error e =>
    obtain ⟨passed, refused, more, -, cut, -, state⟩ := scan_refused answer
    rw [state]
    exact ⟨front ++ passed ++ refused, by rw [whole, cut]; simp, rfl⟩

theorem StandsIn.resumed (h : s.StandsIn text) (n : Nat) : (s.resumed n).StandsIn text := by
  induction n generalizing s with
  | zero => exact h
  | succ n ih => exact ih h.scan

/-- At the end of a text every scan finds the end of the input. -/
theorem resumed_at_end (l : Location) (n : Nat) : (Scanner.mk [] l).resumed n = ⟨[], l⟩ := by
  induction n with
  | zero => rfl
  | succ n ih =>
    have still : (Scanner.mk [] l).scan.2 = ⟨[], l⟩ := by rw [scan_state]; rfl
    rw [Scanner.resumed, still, ih]

def refusal? : Except LexError (List Token) → Option LexError
  | .ok _ => none
  | .error e => some e

def refusals (answers : List (Except LexError (List Token))) : List LexError :=
  answers.filterMap refusal?

theorem refusals_accepted (tokens : List Token) (answers : List (Except LexError (List Token))) :
    refusals (.ok tokens :: answers) = refusals answers := rfl

theorem refusals_refused (e : LexError) (answers : List (Except LexError (List Token))) :
    refusals (.error e :: answers) = e :: refusals answers := rfl

/-- Every refusal comes from behind the place of the scanner, takes a character at least, and the
next one comes from behind it. -/
theorem refusals_scans (front rest : List Char) (calls : Nat) :
    let found := refusals ((Scanner.mk rest (.behind front)).scans calls)
    (∀ e ∈ found, ∃ passed, e.location = .behind (front ++ passed)) ∧
      found.length ≤ rest.length ∧ found.Pairwise fun e f => e.location.Before f.location := by
  induction calls generalizing front rest with
  | zero => exact ⟨List.forall_mem_nil _, Nat.zero_le _, .nil⟩
  | succ calls ih =>
    cases answer : (Scanner.mk rest (.behind front)).scan.1 with
    | ok tokens =>
      obtain ⟨-, state⟩ := scan_accepted answer
      obtain ⟨places, count, ascending⟩ := ih (front ++ rest) []
      rw [scans, answer, state, refusals_accepted]
      refine ⟨fun e member => ?_, Nat.le_trans count (Nat.zero_le _), ascending⟩
      obtain ⟨passed, place⟩ := places e member
      exact ⟨rest ++ passed, by rw [place, List.append_assoc]⟩
    | error e =>
      obtain ⟨passed, refused, more, kind, cut, here, state⟩ := scan_refused answer
      obtain ⟨places, count, ascending⟩ := ih (front ++ passed ++ refused) more
      rw [scans, answer, state, refusals_refused]
      refine ⟨List.forall_mem_cons.2 ⟨⟨passed, here⟩, fun f member => ?_⟩, ?_,
        List.pairwise_cons.2 ⟨fun f member => ?_, ascending⟩⟩
      · obtain ⟨later, place⟩ := places f member
        exact ⟨passed ++ (refused ++ later), by rw [place]; simp⟩
      · have taken : 0 < refused.length := List.length_pos_iff.2 kind.ne_nil
        rw [cut, List.length_cons, List.length_append, List.length_append]
        omega
      · obtain ⟨later, place⟩ := places f member
        rw [here, place, List.append_assoc _ refused]
        exact Location.before_behind _ (List.append_ne_nil_of_left_ne_nil kind.ne_nil later)

/-- A text scanned again and again by one scanner. A refusal leaves it right behind what is refused
there, and its next answer is that of a scan of what is left, with every place counted in the whole
text. Refusals come from places one behind the other, at most as many as there are characters, and
behind the first answer that accepts stands the end of the input alone. -/
theorem scans_resumed (source : String) (calls : Nat) :
    (refusals ((ofText source).scans calls)).length ≤ source.toList.length ∧
    (refusals ((ofText source).scans calls)).Pairwise (fun e f => e.location.Before f.location) ∧
    let s := ofText source
    let answers := s.scans calls
    ∀ i < calls, ∃ front rest, source.toList = front ++ rest ∧
      s.resumed i = ⟨rest, .behind front⟩ ∧
      answers[i]? = some (answerFrom (.behind front) (tokenize (String.ofList rest))) ∧
      (∀ e, answers[i]? = some (.error e) →
        ∃ passed refused more, Refused e.cause refused more ∧ rest = passed ++ (refused ++ more) ∧
          e.location = .behind (front ++ passed) ∧
          s.resumed (i + 1) = ⟨more, .behind (front ++ passed ++ refused)⟩ ∧
          more.length < rest.length) ∧
      ∀ tokens, answers[i]? = some (.ok tokens) →
        tokens.getLast? = some ⟨none, .behind source.toList⟩ ∧
          ∀ j < calls, i < j → answers[j]? = some (.ok [⟨none, .behind source.toList⟩]) := by
  obtain ⟨-, count, ascending⟩ := refusals_scans [] source.toList calls
  refine ⟨count, ascending, ?_⟩
  intro s answers i within
  have stands : s.StandsIn source.toList := ⟨[], rfl, rfl⟩
  obtain ⟨front, whole, place⟩ := stands.resumed i
  have answer : answers[i]? = some (s.resumed i).scan.1 := s.getElem?_scans within
  have next : s.resumed (i + 1) = (s.resumed i).scan.2 := s.resumed_add i 1
  generalize s.resumed i = here at whole place answer next
  obtain ⟨rest, location⟩ := here
  dsimp only at whole place
  subst place
  rw [answer]
  refine ⟨front, rest, whole, rfl, congrArg some (scan_countedFrom front rest), fun e refusal => ?_,
    fun tokens accepted => ?_⟩
  · obtain ⟨passed, refused, more, kind, cut, origin, state⟩ := scan_refused (Option.some.inj refusal)
    refine ⟨passed, refused, more, kind, cut, origin, next.trans state, ?_⟩
    have taken : 0 < refused.length := List.length_pos_iff.2 kind.ne_nil
    rw [cut, List.length_append, List.length_append]
    omega
  · obtain ⟨last, state⟩ := scan_accepted (Option.some.inj accepted)
    rw [← whole] at last state
    refine ⟨last, fun j bound later => ?_⟩
    obtain ⟨k, rfl⟩ := Nat.exists_eq_add_of_lt later
    have ended : s.resumed (i + k + 1) = ⟨[], .behind source.toList⟩ := by
      rw [Nat.add_assoc, Nat.add_comm k, ← Nat.add_assoc, resumed_add, next, state, resumed_at_end]
    rw [s.getElem?_scans bound, ended, scan_answer]
    rfl

end Scanner
end ScriptFrontend
