import ScriptFrontend.Explorer.Highlight
import ScriptFrontend.Proofs.Lexical.Insertion

/-!
# Highlighted lines

A line is coloured without the scanner, and all of its characters come out again, whatever they are.
-/
namespace ScriptFrontend

theorem StyledLine.toList_text (line : StyledLine) :
    (StyledLine.text line).toList = line.flatMap fun span => span.text.toList := by
  induction line with
  | nil => rfl
  | cons span line ih =>
    rw [text, List.map_cons, String.join_cons, String.toList_append, ← text, ih, List.flatMap_cons]

namespace Highlight
open Scanning
variable {word w cs rest content : List Char} {c : Char}

/-! What the first character does -/

/-- A character that stands alone: it belongs to no word, and opens neither a comment nor a text. -/
def StandsAlone (c : Char) : Prop := c ≠ '#' ∧ c ≠ '"' ∧ isNamePart c = false

theorem continues_nil (c : Char) : continues [] c = isNamePart c := by
  simp [continues, startsNumber]

theorem continues_of_isNamePart (part : isNamePart c = true) (word : List Char) :
    continues word c = true := by
  rw [continues, part, Bool.true_or]

theorem continues_eq_false (part : isNamePart c = false) (point : c ≠ '.') (word : List Char) :
    continues word c = false := by
  rw [continues, part, decide_eq_false point]
  rfl

theorem spans_nil (word : List Char) : spans word [] = wordSpan word false := by
  rw [spans]

theorem spans_comment (word cs : List Char) :
    spans word ('#' :: cs) = wordSpan word false ++ [⟨String.ofList ('#' :: cs), Theme.comment⟩] := by
  rw [spans, if_pos rfl]

theorem spans_quote (word cs : List Char) :
    spans word ('"' :: cs) =
      wordSpan word false ++
        ⟨String.ofList ('"' :: (cs.takeWhile (· ≠ '"') ++ (cs.dropWhile (· ≠ '"')).take 1)),
          Theme.quoted⟩ :: spans [] ((cs.dropWhile (· ≠ '"')).drop 1) := by
  rw [spans, if_neg (by decide), if_pos rfl]
  simp only [drop_takeWhile, List.cons_append]

theorem spans_continued (h : continues word c = true) (cs : List Char) :
    spans word (c :: cs) = spans (word ++ [c]) cs := by
  have uncommented : c ≠ '#' := by
    rintro rfl
    cases h
  have unquoted : c ≠ '"' := by
    rintro rfl
    cases h
  rw [spans, if_neg uncommented, if_neg unquoted, if_pos h]

theorem spans_mark (uncommented : c ≠ '#') (unquoted : c ≠ '"') (ends : continues word c = false)
    (cs : List Char) :
    spans word (c :: cs) =
      wordSpan word (c = '(') ++ ⟨String.singleton c, markStyle c⟩ :: spans [] cs := by
  rw [spans, if_neg uncommented, if_neg unquoted, if_neg (Bool.eq_false_iff.1 ends)]

/-! No character is lost -/

theorem wordSpan_chars (word : List Char) (called : Bool) :
    (wordSpan word called).flatMap (fun span => span.text.toList) = word := by
  unfold wordSpan
  split
  · rename_i empty
    rw [empty, List.flatMap_nil]
  · rw [List.flatMap_singleton, String.toList_ofList]

theorem spans_chars (word cs : List Char) :
    (spans word cs).flatMap (fun span => span.text.toList) = word ++ cs := by
  induction word, cs using spans.induct with
  | case1 word => rw [spans_nil, wordSpan_chars, List.append_nil]
  | case2 word cs =>
    rw [spans_comment, List.flatMap_append, wordSpan_chars, List.flatMap_singleton,
      String.toList_ofList]
  | case3 word cs content behind _ ih =>
    have split : behind = cs.dropWhile (· ≠ '"') := drop_takeWhile _ cs
    rw [split] at ih
    rw [spans_quote, List.flatMap_append, wordSpan_chars, List.flatMap_cons, ih,
      String.toList_ofList, List.nil_append, List.cons_append, List.append_assoc,
      List.take_append_drop, List.takeWhile_append_dropWhile]
  | case4 word c cs _ _ more ih =>
    rw [spans_continued more, ih, List.append_assoc, List.singleton_append]
  | case5 word c cs uncommented unquoted ends ih =>
    rw [spans_mark uncommented unquoted (Bool.eq_false_iff.2 ends), List.flatMap_append,
      wordSpan_chars, List.flatMap_cons, ih, String.toList_singleton]
    rfl

theorem text_line (text : String) : StyledLine.text (line text) = text := by
  rw [← String.toList_inj, StyledLine.toList_text, line, spans_chars, List.nil_append]

/-! Words, texts and single characters in front of a line -/

theorem continues_append (h : continues word c = true) (more : List Char) :
    continues (word ++ more) c = true := by
  cases word with
  | nil =>
    rw [continues_nil] at h
    simp [continues, h]
  | cons d word => exact h

theorem spans_gathered (h : ∀ c ∈ w, continues word c = true) (rest : List Char) :
    spans word (w ++ rest) = spans (word ++ w) rest := by
  induction w generalizing word with
  | nil => rw [List.nil_append, List.append_nil]
  | cons c w ih =>
    obtain ⟨first, others⟩ := List.forall_mem_cons.1 h
    have later : ∀ d ∈ w, continues (word ++ [c]) d = true := fun d member =>
      continues_append (others d member) [c]
    rw [List.cons_append, spans_continued first, ih later, List.append_assoc, List.singleton_append]

/-- A word ends before a character that does not continue it, or with the line. -/
theorem spans_flush (ends : ∀ c ∈ rest.head?, continues word c = false) :
    spans word rest = wordSpan word (rest.head? = some '(') ++ spans [] rest := by
  have none (called : Bool) : wordSpan [] called = [] := if_pos rfl
  cases rest with
  | nil =>
    rw [spans_nil, spans_nil, none, List.append_nil]
    rfl
  | cons c cs =>
    have stops := ends c rfl
    by_cases comment : c = '#'
    · subst comment
      rw [spans_comment, spans_comment, none]
      rfl
    · by_cases quote : c = '"'
      · subst quote
        rw [spans_quote, spans_quote, none]
        rfl
      · have alone : continues [] c = false := by
          rw [continues_nil]
          exact (Bool.or_eq_false_iff.1 stops).1
        rw [spans_mark comment quote stops, spans_mark comment quote alone, none, List.nil_append]
        simp only [List.head?_cons, Option.some.injEq]

theorem spans_word (first : isNamePart c = true) (others : ∀ d ∈ w, continues [c] d = true)
    (ends : ∀ d ∈ rest.head?, continues (c :: w) d = false) :
    spans [] (c :: (w ++ rest)) =
      ⟨String.ofList (c :: w), wordStyle (c :: w) (rest.head? = some '(')⟩ :: spans [] rest := by
  have opens : continues [] c = true := by rwa [continues_nil]
  rw [spans_continued opens, List.nil_append, spans_gathered others, List.singleton_append,
    spans_flush ends, wordSpan, if_neg (List.cons_ne_nil c w), List.singleton_append]

theorem spans_text (plain : '"' ∉ content) (rest : List Char) :
    spans [] ('"' :: (content ++ '"' :: rest)) =
      ⟨String.ofList ('"' :: (content ++ ['"'])), Theme.quoted⟩ :: spans [] rest := by
  have inside : (content ++ '"' :: rest).takeWhile (· ≠ '"') = content := by
    rw [takeWhile_unquoted plain, List.takeWhile_cons_of_neg (by simp), List.append_nil]
  have behind : (content ++ '"' :: rest).dropWhile (· ≠ '"') = '"' :: rest := by
    rw [← drop_takeWhile, inside, List.drop_left]
  rw [spans_quote, inside, behind]
  rfl

def mark (c : Char) : Span := ⟨String.singleton c, markStyle c⟩

theorem spans_alone (h : ∀ c ∈ w, StandsAlone c) (rest : List Char) :
    spans [] (w ++ rest) = w.map mark ++ spans [] rest := by
  induction w with
  | nil => rfl
  | cons c w ih =>
    obtain ⟨⟨uncommented, unquoted, part⟩, others⟩ := List.forall_mem_cons.1 h
    rw [← continues_nil] at part
    rw [List.cons_append, spans_mark uncommented unquoted part, ih others]
    rfl

end Highlight
end ScriptFrontend
