import ScriptFrontend.Proofs.Explorer.Highlighting

/-!
# Colours of lexemes

On a line that lexes, the spans are the lexemes: a keyword, a name, a number and a text are each shown
in one span, a comment behind the last lexeme in another, and every other character has a span of its
own in a style that none of these have. The one exception is a number with a word right behind it,
which the highlighter reads as one word.
-/
namespace ScriptFrontend

def Lexeme.isNumber : Lexeme → Bool
  | integer _ | decimal _ => true
  | _ => false

def Lexeme.isWord : Lexeme → Bool
  | name _ => true
  | symbol s => s ∈ Symbol.keywords
  | _ => false

/-- The style of a lexeme that is shown in one span. Operators and punctuation have none. -/
def Lexeme.style? (called : Bool) : Lexeme → Option Style
  | symbol s => if s ∈ Symbol.keywords then some Theme.keyword else none
  | name _ => some (if called then Theme.callee else Theme.code)
  | integer _ | decimal _ => some Theme.number
  | text _ => some Theme.quoted

namespace Highlight
open Scanning
variable {word w gap rest text : List Char} {c : Char} {l : Lexeme} {d : Division} {cuts : List Cut}

/-! Characters of lexemes -/

theorem isNumeric_of_isDigit (h : Decimal.isDigit c = true) : Unicode.isNumeric c = true := by
  simp only [Decimal.isDigit, Bool.and_eq_true, decide_eq_true_eq, Char.le_def,
    UInt32.le_iff_toNat_le] at h
  have low : ¬c.toNat < 0x30 := Nat.not_lt.2 h.1
  have high : c.toNat ≤ 0x39 := h.2
  rw [Unicode.isNumeric, Unicode.numericRanges, Unicode.covers, if_neg low, decide_eq_true high,
    Bool.true_or]

theorem isNamePart_of_isDigit (h : Decimal.isDigit c = true) : isNamePart c = true := by
  rw [isNamePart, isNumeric_of_isDigit h, Bool.or_true, Bool.true_or]

theorem isDigit_of_isNameStart (h : isNameStart c = true) : Decimal.isDigit c = false := by
  cases digit : Decimal.isDigit c with
  | false => rfl
  | true =>
    rw [isNameStart_of_isDigit digit] at h
    cases h

theorem keyword_known :
    ∀ k ∈ Symbol.keywords, (Symbol.ofWord? k.spelling).isSome = true := by
  decide

theorem keyword_letters :
    ∀ k ∈ Symbol.keywords, k.spelling.toList.head?.any isNameStart = true ∧
      k.spelling.toList.tail.all isNamePart = true := by
  decide

theorem exists_keyword_letters {s : Symbol} (keyword : s ∈ Symbol.keywords) :
    ∃ c w, s.spelling.toList = c :: w ∧ isNameStart c = true ∧ ∀ d ∈ w, isNamePart d = true := by
  obtain ⟨first, others⟩ := keyword_letters s keyword
  cases spelled : s.spelling.toList with
  | nil =>
    rw [spelled] at first
    cases first
  | cons c w =>
    rw [spelled] at first others
    exact ⟨c, w, rfl, first, List.all_eq_true.1 others⟩

/-- Only the words among the symbols have characters that a word can hold. -/
theorem operator_alone (s : Symbol) (operator : s ∉ Symbol.keywords) :
    ∀ c ∈ s.spelling.toList, StandsAlone c ∧ c ≠ '.' := by
  have alone : s.spelling.toList.all
      (fun c => c ≠ '#' && c ≠ '"' && !isNamePart c && c ≠ '.') = true := by
    cases s <;> first | exact absurd (by decide) operator | decide
  intro c member
  simpa [StandsAlone, and_assoc] using List.all_eq_true.1 alone c member

theorem blank_alone : ∀ c ∈ [' ', '\t', '\r', '\n'], StandsAlone c :=
  blank_cases ⟨by decide, by decide, rfl⟩ ⟨by decide, by decide, rfl⟩ ⟨by decide, by decide, rfl⟩
    ⟨by decide, by decide, rfl⟩

/-! One lexeme -/

theorem wordStyle_keyword {s : Symbol} (keyword : s ∈ Symbol.keywords) (called : Bool) :
    wordStyle s.spelling.toList called = Theme.keyword := by
  rw [wordStyle, String.ofList_toList, if_pos (keyword_known s keyword)]

theorem wordStyle_number (first : Decimal.isDigit c = true) (called : Bool) :
    wordStyle (c :: w) called = Theme.number := by
  have unknown : Symbol.ofWord? (String.ofList (c :: w)) = none := by
    refine ofWord?_eq_none fun k keyword same => ?_
    obtain ⟨d, w', spelled, letter, -⟩ := exists_keyword_letters keyword
    obtain ⟨rfl, -⟩ := List.cons_eq_cons.1 (spelled.symm.trans same)
    rw [isDigit_of_isNameStart letter] at first
    cases first
  have number : startsNumber (c :: w) = true := first
  rw [wordStyle, unknown, if_neg (by decide), if_pos number]

theorem wordStyle_name (start : isNameStart c = true)
    (fresh : ∀ k ∈ Symbol.keywords, k.spelling.toList ≠ c :: w) (called : Bool) :
    wordStyle (c :: w) called = if called then Theme.callee else Theme.code := by
  have letter : startsNumber (c :: w) = false := isDigit_of_isNameStart start
  rw [wordStyle, ofWord?_eq_none fresh, if_neg (by decide), if_neg (ne_true_of_eq_false letter)]

/-- The spans of a lexeme: one, or one for each character of an operator or punctuation. -/
def lexemeSpans (word : List Char) (l : Lexeme) (rest : List Char) : StyledLine :=
  match l.style? (rest.head? = some '(') with
  | some style => [⟨String.ofList word, style⟩]
  | none => word.map mark

/-- Behind the longest word nothing continues it. -/
theorem not_isNamePart_behind (longest : LongestLexeme (c :: (w ++ rest)) (c :: w) l)
    (start : isNameStart c = true) (part : ∀ d ∈ w, isNamePart d = true) :
    ∀ d ∈ rest.head?, continues (c :: w) d = false := by
  intro d head
  obtain ⟨behind, rfl⟩ := List.head?_eq_some_iff.1 head
  have number : startsNumber (c :: w) = false := isDigit_of_isNameStart start
  cases more : isNamePart d with
  | false => simp [continues, more, number]
  | true =>
    have longer : Spells (c :: (w ++ [d])) (.ofWord (String.ofList (c :: (w ++ [d])))) := by
      refine spells_ofWord start fun e member => ?_
      rcases List.mem_append.1 member with inside | last
      · exact part e inside
      · rwa [List.mem_singleton.1 last]
    have bound : w.length + 1 + 1 ≤ w.length + 1 := by
      simpa using longest.2.2 _ _ ⟨behind, by simp⟩ longer
    omega

theorem spans_lexeme (longest : LongestLexeme (word ++ rest) word l)
    (ends : l.isNumber = true → ∀ c ∈ rest.head?, continues word c = false) :
    spans [] (word ++ rest) = lexemeSpans word l rest ++ spans [] rest := by
  cases longest.2.1 with
  | text plain =>
    rw [List.cons_append, List.append_assoc, List.singleton_append, spans_text plain]
    rfl
  | integer nonempty digits =>
    obtain ⟨c, w, rfl⟩ := List.exists_cons_of_ne_nil nonempty
    obtain ⟨first, others⟩ := List.forall_mem_cons.1 digits
    have parts : ∀ d ∈ w, continues [c] d = true := fun d member =>
      continues_of_isNamePart (isNamePart_of_isDigit (others d member)) [c]
    rw [List.cons_append, spans_word (isNamePart_of_isDigit first) parts (ends rfl),
      wordStyle_number first]
    rfl
  | @decimal whole fraction nonempty digits places =>
    obtain ⟨c, w, rfl⟩ := List.exists_cons_of_ne_nil nonempty
    obtain ⟨first, others⟩ := List.forall_mem_cons.1 digits
    have parts : ∀ d ∈ w ++ '.' :: fraction, continues [c] d = true := fun d member => by
      rcases List.mem_append.1 member with inside | behind
      · exact continues_of_isNamePart (isNamePart_of_isDigit (others d inside)) [c]
      · rcases List.mem_cons.1 behind with rfl | inside
        · exact first
        · exact continues_of_isNamePart (isNamePart_of_isDigit (places d inside)) [c]
    rw [List.cons_append, List.cons_append, spans_word (isNamePart_of_isDigit first) parts (ends rfl),
      wordStyle_number first]
    rfl
  | @name c w start part fresh =>
    have parts : ∀ d ∈ w, continues [c] d = true := fun d member =>
      continues_of_isNamePart (part d member) [c]
    rw [List.cons_append] at longest ⊢
    rw [spans_word (isNamePart_of_isNameStart start) parts (not_isNamePart_behind longest start part),
      wordStyle_name start fresh]
    rfl
  | symbol s =>
    by_cases keyword : s ∈ Symbol.keywords
    · obtain ⟨c, w, spelled, start, part⟩ := exists_keyword_letters keyword
      have style := wordStyle_keyword keyword (rest.head? = some '(')
      have own : (Lexeme.symbol s).style? (rest.head? = some '(') = some Theme.keyword :=
        if_pos keyword
      have parts : ∀ d ∈ w, continues [c] d = true := fun d member =>
        continues_of_isNamePart (part d member) [c]
      rw [lexemeSpans, own]
      rw [spelled] at longest style ⊢
      rw [List.cons_append] at longest ⊢
      rw [spans_word (isNamePart_of_isNameStart start) parts
        (not_isNamePart_behind longest start part), style]
      rfl
    · have alone : ∀ c ∈ s.spelling.toList, StandsAlone c := fun c member =>
        (operator_alone s keyword c member).1
      have style : (Lexeme.symbol s).style? (rest.head? = some '(') = none := if_neg keyword
      rw [spans_alone alone, lexemeSpans, style]

end Highlight
end ScriptFrontend
