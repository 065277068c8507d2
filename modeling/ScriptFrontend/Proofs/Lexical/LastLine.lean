import ScriptFrontend.Proofs.Lexical.Division
import ScriptFrontend.Proofs.Lexical.Lines

/-!
# The line at a place

Places count line feeds and the characters behind the last of them, and carriage returns are
characters like others. Lines lose the carriage return of their ending, and there is none behind the
last line feed of a text. The two agree where it matters: the line at the place of a lexeme holds the
lexeme's first character at the place's column, and the line at the end of a text, if there is one,
ends at the place's column.
-/
namespace ScriptFrontend
namespace Text
variable {front line rest : List Char} {above : List (List Char)} {text : String}

/-- The last line of a piece of text, and the pieces above it. -/
inductive LastLine : List Char → List (List Char) → List Char → Prop where
  | only {line : List Char} : '\n' ∉ line → LastLine line [] line
  | below {above line : List Char} : '\n' ∉ line → LastLine (above ++ '\n' :: line) (pieces above) line

theorem exists_lastLine (front : List Char) : ∃ above line, LastLine front above line := by
  by_cases feed : '\n' ∈ front
  · obtain ⟨line, above, reversed, plain⟩ := List.eq_append_cons_of_mem (List.mem_reverse.2 feed)
    have whole : front = above.reverse ++ '\n' :: line.reverse := by
      simpa using congrArg List.reverse reversed
    rw [whole]
    exact ⟨_, _, .below (mt List.mem_reverse.1 plain)⟩
  · exact ⟨[], front, .only feed⟩

theorem ne_of_mem_reverse (plain : '\n' ∉ line) : ∀ c ∈ line.reverse, decide (c ≠ '\n') = true := by
  intro c member
  apply decide_eq_true
  intro feed
  rw [feed] at member
  exact plain (List.mem_reverse.1 member)

theorem LastLine.behind_eq (h : LastLine front above line) :
    Location.behind front = ⟨1 + above.length, 1 + line.length⟩ := by
  cases h with
  | only plain =>
    have column : front.reverse.takeWhile (· ≠ '\n') = front.reverse := by
      rw [← List.append_nil front.reverse, List.takeWhile_append_of_pos (ne_of_mem_reverse plain),
        List.takeWhile_nil]
    rw [Location.behind, column, List.count_eq_zero.2 plain, List.length_reverse]
    rfl
  | @below front line plain =>
    have column : (front ++ '\n' :: line).reverse.takeWhile (· ≠ '\n') = line.reverse := by
      rw [List.reverse_append, List.reverse_cons, List.append_assoc,
        List.takeWhile_append_of_pos (ne_of_mem_reverse plain)]
      simp
    rw [Location.behind, column, List.count_append, List.count_cons_self, List.count_eq_zero.2 plain,
      length_pieces, List.length_reverse, Nat.add_comm 1 (front.count '\n')]

theorem LastLine.pieces_append (h : LastLine front above line) {q : List Char} {qs : List (List Char)}
    (split : pieces rest = q :: qs) : pieces (front ++ rest) = above ++ (line ++ q) :: qs := by
  cases h with
  | only plain => exact pieces_append_plain plain split
  | below plain =>
    rw [List.append_assoc, List.cons_append, pieces_lineFeed, pieces_append_plain plain split]

theorem LastLine.eq_nil_iff (h : LastLine front above line) (nonempty : front ≠ []) :
    line = [] ↔ front.getLast? = some '\n' := by
  have last : line ≠ [] → front.getLast? = line.getLast? := by
    intro filled
    cases h with
    | only plain => rfl
    | @below above line plain =>
      have feed : ('\n' :: line).getLast? = line.getLast? := by
        rw [List.getLast?_cons, List.getLast?_eq_some_getLast filled, Option.getD_some]
      rw [List.getLast?_append, feed, List.getLast?_eq_some_getLast filled, Option.some_or]
  have plain : '\n' ∉ line := by cases h <;> assumption
  constructor
  · intro empty
    cases h with
    | only plain => exact absurd empty nonempty
    | below plain => rw [empty, List.getLast?_concat]
  · intro ended
    by_cases empty : line = []
    · exact empty
    · rw [last empty] at ended
      exact absurd (List.mem_of_getLast? ended) plain

/-- The line that the last line of a piece of text grows into. -/
theorem LastLine.nthLine? (h : LastLine front above line) (whole : text.toList = front ++ rest)
    {q : List Char} {qs : List (List Char)} (split : pieces rest = q :: qs) :
    nthLine? (lines text) (Location.behind front).line =
      (linesOfPieces ((line ++ q) :: qs)).head?.map String.ofList := by
  have count : (above.map dropReturn).length = above.length := List.length_map _
  have place : (Location.behind front).line = 1 + above.length := congrArg Location.line h.behind_eq
  have counted : 1 + above.length ≠ 0 := by omega
  have below : (above.map dropReturn).length ≤ 1 + above.length - 1 := by omega
  rw [Text.nthLine?, place, if_neg counted, lines, whole, h.pieces_append split,
    linesOfPieces_append _ (List.cons_ne_nil _ _), List.getElem?_map, List.getElem?_append_right below,
    count, Nat.add_sub_cancel_left, Nat.sub_self, List.head?_eq_getElem?]

theorem dropReturn_append_cons {c : Char} (visible : c ≠ '\r') (p q : List Char) :
    ∃ more, dropReturn (p ++ c :: q) = p ++ c :: more := by
  unfold dropReturn
  split
  · rename_i ended
    cases q with
    | nil =>
      rw [List.getLast?_concat] at ended
      exact absurd (Option.some.inj ended) visible
    | cons d q =>
      refine ⟨(d :: q).dropLast, ?_⟩
      rw [List.dropLast_append_cons, List.dropLast_cons_cons]
  · exact ⟨q, rfl⟩

theorem LastLine.quoted_at {c : Char} (h : LastLine front above line)
    (whole : text.toList = front ++ c :: rest) (inside : c ≠ '\n') (visible : c ≠ '\r') :
    ∃ more, Text.nthLine? (lines text) (Location.behind front).line =
      some (String.ofList (line ++ c :: more)) := by
  obtain ⟨q, qs, split⟩ := List.exists_cons_of_ne_nil (pieces_ne_nil rest)
  have first : pieces (c :: rest) = (c :: q) :: qs := by
    rw [pieces, if_neg inside, split]
  rw [h.nthLine? whole first]
  cases qs with
  | nil =>
    refine ⟨q, ?_⟩
    rw [linesOfPieces, if_neg (by simp)]
    rfl
  | cons r qs =>
    obtain ⟨more, kept⟩ := dropReturn_append_cons visible line q
    refine ⟨more, ?_⟩
    rw [linesOfPieces, kept]
    rfl

theorem LastLine.quoted_end (h : LastLine front above line) (whole : text.toList = front) :
    Text.nthLine? (lines text) (Location.behind front).line =
      if line = [] then none else some (String.ofList line) := by
  rw [h.nthLine? (whole.trans (List.append_nil front).symm) (show pieces [] = [[]] from rfl),
    List.append_nil, linesOfPieces]
  split <;> rfl

end Text

namespace Scanning
variable {text word : List Char} {l : Lexeme} {d : Division}

theorem isNameStart_of_blank : ∀ c ∈ [' ', '\t', '\r', '\n'], isNameStart c = false :=
  blank_cases rfl rfl rfl rfl

theorem symbol_visible (s : Symbol) :
    ∃ c w, s.spelling.toList = c :: w ∧ c ∉ [' ', '\t', '\r', '\n'] := by
  cases s <;> exact ⟨_, _, rfl, by decide⟩

theorem Spells.exists_visible (h : Spells word l) :
    ∃ c w, word = c :: w ∧ c ∉ [' ', '\t', '\r', '\n'] := by
  have digit {c : Char} (first : Decimal.isDigit c = true) : c ∉ [' ', '\t', '\r', '\n'] := by
    intro blank
    rw [isDigit_of_blank c blank] at first
    cases first
  cases h with
  | text => exact ⟨_, _, rfl, by decide⟩
  | integer nonempty digits =>
    obtain ⟨c, w, rfl⟩ := List.exists_cons_of_ne_nil nonempty
    exact ⟨c, w, rfl, digit (digits c List.mem_cons_self)⟩
  | decimal nonempty digits _ =>
    obtain ⟨c, w, rfl⟩ := List.exists_cons_of_ne_nil nonempty
    exact ⟨c, _, rfl, digit (digits c List.mem_cons_self)⟩
  | @name c w start =>
    refine ⟨c, w, rfl, fun blank => ?_⟩
    rw [isNameStart_of_blank c blank] at start
    cases start
  | symbol s => exact symbol_visible s

/-- Behind its gap a cut has the place of its token, and its word stands there in the text. -/
theorem Divides.exists_place (h : Divides text d) (front : List Char) {i : Nat} {t : Token}
    (found : (tokensOf front d.cuts ++ [⟨none, .behind (front ++ text)⟩])[i]? = some t) :
    (∃ cut gap rest, d.cuts[i]? = some cut ∧ Spells cut.word cut.lexeme ∧
      text = gap ++ (cut.word ++ rest) ∧ t = ⟨some cut.lexeme, .behind (front ++ gap)⟩) ∨
    t = ⟨none, .behind (front ++ text)⟩ := by
  induction h generalizing front i with
  | stop split _ _ =>
    have last : t ∈ [⟨none, .behind (front ++ _)⟩] := List.mem_of_getElem? found
    exact .inr (List.mem_singleton.1 last)
  | @cut text gap word rest l d split _ longest _ ih =>
    have whole : front ++ text = front ++ gap ++ word ++ rest := by simp [split]
    cases i with
    | zero =>
      refine .inl ⟨⟨gap, word, l⟩, gap, rest, rfl, longest.2.1, split, ?_⟩
      exact (Option.some.inj found).symm
    | succ i =>
      rw [whole] at found
      rcases ih (front ++ gap ++ word) found with ⟨cut, before, behind, here, spelled, stands, rfl⟩ | last
      · refine .inl ⟨cut, gap ++ (word ++ before), behind, here, spelled, ?_, ?_⟩
        · simp [split, stands]
        · simp
      · exact .inr (whole ▸ last)

end Scanning
end ScriptFrontend
