import ScriptFrontend.Proofs.Explorer.Colouring
import ScriptFrontend.Proofs.Lexical.LastLine

/-!
# The highlighter agrees with the scanner

A line that lexes is one gap and one lexeme after another, and its spans are those of the gaps and of
the lexemes. The highlighter looks at no lexeme, so it could only go wrong where it gathers a longer
word than the scanner takes: behind a number.
-/
namespace ScriptFrontend
namespace Scanning
variable {text last front rest gap word : List Char} {c k : Cut} {cuts : List Cut} {d : Division}
  {l : Lexeme}

/-! Cuts in their places -/

/-- No number has a name or a keyword right behind it. -/
def NumbersApart : List Cut → Prop
  | [] => True
  | c :: cuts =>
    (∀ next ∈ cuts.head?, c.lexeme.isNumber = true → next.lexeme.isWord = true → next.gap ≠ []) ∧
      NumbersApart cuts

/-- The word of a cut stands behind the front and before the rest of the text. -/
inductive Stands (last : List Char) (c : Cut) : List Cut → List Char → List Char → Prop where
  | here {cuts : List Cut} :
      Stands last c (c :: cuts) c.gap (cuts.flatMap (fun c => c.gap ++ c.word) ++ last)
  | later {k : Cut} {cuts : List Cut} {front rest : List Char} :
      Stands last c cuts front rest → Stands last c (k :: cuts) (k.gap ++ k.word ++ front) rest

theorem Stands.whole (h : Stands last c cuts front rest) :
    cuts.flatMap (fun c => c.gap ++ c.word) ++ last = front ++ (c.word ++ rest) := by
  induction h with
  | here => simp
  | later _ ih => rw [List.flatMap_cons, List.append_assoc, ih, ← List.append_assoc]

theorem Stands.mem_tokensOf (h : Stands last c cuts front rest) (before : List Char) :
    ⟨some c.lexeme, .behind (before ++ front)⟩ ∈ tokensOf before cuts := by
  induction h generalizing before with
  | here => exact List.mem_cons_self
  | @later k cuts front rest _ ih =>
    have member := ih (before ++ k.gap ++ k.word)
    have place : before ++ k.gap ++ k.word ++ front = before ++ (k.gap ++ k.word ++ front) := by simp
    rw [place] at member
    exact List.mem_cons_of_mem _ member

theorem exists_stands {t : Token} (last before : List Char) (member : t ∈ tokensOf before cuts) :
    ∃ c front rest, Stands last c cuts front rest ∧
      t = ⟨some c.lexeme, .behind (before ++ front)⟩ := by
  induction cuts generalizing before with
  | nil => cases member
  | cons k cuts ih =>
    rcases List.mem_cons.1 member with rfl | member
    · exact ⟨k, _, _, .here, rfl⟩
    · obtain ⟨c, front, rest, stands, rfl⟩ := ih _ member
      exact ⟨c, _, rest, .later stands, by simp⟩

theorem Divides.covers (h : Divides text d) (covers : d.left = []) :
    text = d.cuts.flatMap (fun c => c.gap ++ c.word) ++ d.gap := by
  have whole := covered_append_left h
  rwa [covers, List.append_nil] at whole

theorem Stands.longest (h : Divides text d) (covers : d.left = [])
    (stands : Stands d.gap c d.cuts front rest) : LongestLexeme (c.word ++ rest) c.word c.lexeme := by
  induction h generalizing front with
  | stop => cases stands
  | cut _ _ longest others ih =>
    cases stands with
    | here =>
      rw [others.covers covers] at longest
      exact longest
    | later below => exact ih covers below

theorem divides_of_lexemeAt (gap : List Char) (c : Char) (cs : List Char) {n : Nat}
    (gapped : (splitGap false (gap ++ c :: cs)).1 = gap) (found : lexemeAt c cs = .ok (l, n))
    (others : Divides (cs.drop n) d) :
    Divides (gap ++ c :: cs) ⟨⟨gap, c :: cs.take n, l⟩ :: d.cuts, d.gap, d.left⟩ := by
  have longest := longestLexeme_of_lexemeAt found
  have split : c :: cs = c :: cs.take n ++ cs.drop n := by simp
  rw [split] at longest
  exact .cut (congrArg (gap ++ ·) split) ((longestGap_iff _ _).2 gapped.symm) longest others

/-! Gaps of a line -/

theorem blank_of_gap (h : GapBefore rest gap) (single : '\n' ∉ gap) (followed : rest ≠ []) :
    ∀ c ∈ gap, c ∈ [' ', '\t', '\r', '\n'] := by
  induction h with
  | nil => exact List.forall_mem_nil _
  | blank blank _ ih =>
    exact List.forall_mem_cons.2 ⟨blank, ih fun feed => single (List.mem_cons_of_mem _ feed)⟩
  | comment => exact absurd (by simp) single
  | lastComment _ final => exact absurd final followed

end Scanning

namespace Highlight
open Scanning
variable {text last front rest gap word : List Char} {c : Cut} {cuts : List Cut} {d : Division}
  {l : Lexeme} {s x : Span} {row more : StyledLine}

/-! Spans in their places -/

/-- A span that is shown behind the front. -/
inductive Shows (s : Span) : StyledLine → List Char → Prop where
  | here {row : StyledLine} : Shows s (s :: row) []
  | later {x : Span} {row : StyledLine} {front : List Char} :
      Shows s row front → Shows s (x :: row) (x.text.toList ++ front)

theorem Shows.mem (h : Shows s row front) : s ∈ row := by
  induction h with
  | here => exact List.mem_cons_self
  | later _ ih => exact List.mem_cons_of_mem _ ih

theorem Shows.before (h : Shows s row front) (more : StyledLine) : Shows s (row ++ more) front := by
  induction h with
  | here => exact .here
  | later _ ih => exact .later ih

theorem Shows.behind (h : Shows s row front) (before : StyledLine) :
    Shows s (before ++ row) ((StyledLine.text before).toList ++ front) := by
  induction before with
  | nil => exact h
  | cons x before ih =>
    rw [StyledLine.toList_text] at ih ⊢
    rw [List.flatMap_cons, List.append_assoc]
    exact .later ih

theorem Shows.of_append (h : Shows s (row ++ more) front) :
    Shows s row front ∨
      ∃ behind, front = (StyledLine.text row).toList ++ behind ∧ Shows s more behind := by
  induction row generalizing front with
  | nil => exact .inr ⟨front, rfl, h⟩
  | cons x row ih =>
    rw [List.cons_append] at h
    cases h with
    | here => exact .inl .here
    | later h =>
      rcases ih h with inside | ⟨behind, rfl, shown⟩
      · exact .inl (.later inside)
      · refine .inr ⟨behind, ?_, shown⟩
        rw [StyledLine.toList_text, StyledLine.toList_text, List.flatMap_cons, List.append_assoc]

theorem Shows.unique (filled : ∀ x ∈ row, x.text.toList ≠ []) (h : Shows s row front)
    (h' : Shows x row front) : s = x := by
  induction h with
  | here =>
    generalize start : ([] : List Char) = front at h'
    cases h' with
    | here => rfl
    | later => exact absurd (List.append_eq_nil_iff.1 start.symm).1 (filled _ List.mem_cons_self)
  | @later y row front _ ih =>
    generalize start : y.text.toList ++ front = behind at h'
    cases h' with
    | here => exact absurd (List.append_eq_nil_iff.1 start).1 (filled _ List.mem_cons_self)
    | later h' =>
      obtain rfl := List.append_cancel_left start
      exact ih (fun x member => filled x (List.mem_cons_of_mem _ member)) h'

theorem spans_filled (word cs : List Char) : ∀ s ∈ spans word cs, s.text.toList ≠ [] := by
  have flushed (word : List Char) (called : Bool) : ∀ s ∈ wordSpan word called, s.text.toList ≠ [] := by
    unfold wordSpan
    split
    · exact List.forall_mem_nil _
    · simpa
  induction word, cs using spans.induct with
  | case1 word =>
    rw [spans_nil]
    exact flushed word false
  | case2 word cs =>
    rw [spans_comment]
    exact List.forall_mem_append.2 ⟨flushed word false, by simp⟩
  | case3 word cs content behind _ ih =>
    have split : behind = cs.dropWhile (· ≠ '"') := drop_takeWhile _ cs
    rw [split] at ih
    rw [spans_quote]
    exact List.forall_mem_append.2 ⟨flushed word false, List.forall_mem_cons.2 ⟨by simp, ih⟩⟩
  | case4 word c cs _ _ more ih =>
    rw [spans_continued more]
    exact ih
  | case5 word c cs uncommented unquoted ends ih =>
    rw [spans_mark uncommented unquoted (Bool.eq_false_iff.2 ends)]
    exact List.forall_mem_append.2 ⟨flushed word _, List.forall_mem_cons.2 ⟨by simp, ih⟩⟩

/-! The spans of a divided line -/

/-- The last gap of a line: blanks, and a comment in one span. -/
def gapSpans : List Char → StyledLine
  | [] => []
  | c :: gap =>
    if c = '#' then [⟨String.ofList (c :: gap), Theme.comment⟩] else mark c :: gapSpans gap

def cutSpans (last : List Char) : List Cut → StyledLine
  | [] => gapSpans last
  | c :: cuts =>
    c.gap.map mark ++
      (lexemeSpans c.word c.lexeme (cuts.flatMap (fun c => c.gap ++ c.word) ++ last) ++
        cutSpans last cuts)

theorem spans_lastGap (h : GapBefore [] gap) (single : '\n' ∉ gap) : spans [] gap = gapSpans gap := by
  induction h with
  | nil => rw [spans_nil]; rfl
  | @blank c gap blank _ ih =>
    obtain ⟨uncommented, unquoted, part⟩ := blank_alone c blank
    rw [← continues_nil] at part
    rw [spans_mark uncommented unquoted part, ih fun feed => single (List.mem_cons_of_mem _ feed),
      gapSpans, if_neg uncommented]
    rfl
  | comment => exact absurd (by simp) single
  | lastComment =>
    rw [spans_comment, gapSpans, if_pos rfl]
    rfl

theorem continues_of_opensGap {c : Char} (opens : OpensGap c) (word : List Char) :
    continues word c = false := by
  refine continues_eq_false (isNamePart_of_opensGap opens) ?_ word
  rintro rfl
  exact absurd opens (by unfold OpensGap; decide)

theorem exists_longer_number {c : Char} (spelled : Spells word l) (number : l.isNumber = true)
    (digit : Decimal.isDigit c = true) : ∃ k, Spells (word ++ [c]) k := by
  have one : ∀ d ∈ [c], Decimal.isDigit d = true := by simpa
  cases spelled with
  | integer _ digits => exact ⟨_, .integer (by simp) (List.forall_mem_append.2 ⟨digits, one⟩)⟩
  | @decimal whole fraction filled digits places =>
    rw [List.append_assoc, List.cons_append]
    exact ⟨_, .decimal filled digits (List.forall_mem_append.2 ⟨places, one⟩)⟩
  | text | name | symbol => cases number

/-- A number ends where the scanner ends it, unless a word stands right behind it. -/
theorem number_ends (longest : LongestLexeme (word ++ rest) word l) (number : l.isNumber = true)
    (others : Divides rest d) (covers : d.left = [])
    (apart : ∀ next ∈ d.cuts.head?, next.lexeme.isWord = true → next.gap ≠ []) :
    ∀ c ∈ rest.head?, continues word c = false := by
  intro c head
  obtain ⟨behind, rfl⟩ := List.head?_eq_some_iff.1 head
  cases others with
  | @stop _ gap left split gapped _ =>
    dsimp only at covers
    obtain ⟨⟨_, cut, isGap⟩, -⟩ := gapped
    rw [covers, List.append_nil] at split
    rw [← split] at isGap
    exact continues_of_opensGap isGap.opensGap word
  | @cut _ gap next rest k d split gapped following _ =>
    cases gap with
    | cons e gap =>
      obtain ⟨rfl, -⟩ := List.cons_eq_cons.1 split
      obtain ⟨⟨_, _, isGap⟩, -⟩ := gapped
      exact continues_of_opensGap isGap.opensGap word
    | nil =>
      have digit : Decimal.isDigit c ≠ true := by
        intro digit
        obtain ⟨k, longer⟩ := exists_longer_number longest.2.1 number digit
        have bound : word.length + 1 ≤ word.length := by
          simpa using longest.2.2 _ _ ⟨behind, by simp⟩ longer
        omega
      have unword : k.isWord ≠ true := fun isWord => apart _ rfl isWord rfl
      rw [List.nil_append] at split
      cases following.2.1 with
      | text =>
        obtain ⟨rfl, -⟩ := List.cons_eq_cons.1 split
        rfl
      | integer filled digits =>
        obtain ⟨e, w, rfl⟩ := List.exists_cons_of_ne_nil filled
        obtain ⟨rfl, -⟩ := List.cons_eq_cons.1 split
        exact absurd (digits _ List.mem_cons_self) digit
      | decimal filled digits =>
        obtain ⟨e, w, rfl⟩ := List.exists_cons_of_ne_nil filled
        obtain ⟨rfl, -⟩ := List.cons_eq_cons.1 split
        exact absurd (digits _ List.mem_cons_self) digit
      | name => exact absurd rfl unword
      | symbol s =>
        have operator : s ∉ Symbol.keywords := fun keyword => unword (decide_eq_true keyword)
        obtain ⟨e, w, spelled, -⟩ := taken_of_spells (.symbol s)
        rw [spelled] at split
        obtain ⟨rfl, -⟩ := List.cons_eq_cons.1 split
        have member : c ∈ s.spelling.toList := by simp [spelled]
        obtain ⟨⟨-, -, part⟩, point⟩ := operator_alone s operator c member
        exact continues_eq_false part point word

theorem spans_divided (h : Divides text d) (covers : d.left = []) (single : '\n' ∉ text)
    (apart : NumbersApart d.cuts) : spans [] text = cutSpans d.gap d.cuts := by
  induction h with
  | @stop text gap left split gapped _ =>
    dsimp only at covers
    obtain ⟨⟨_, cut, isGap⟩, -⟩ := gapped
    rw [← List.append_cancel_left (split.symm.trans cut), covers] at isGap
    rw [covers, List.append_nil] at split
    rw [split] at single ⊢
    exact spans_lastGap isGap single
  | @cut text gap word rest l d split gapped longest others ih =>
    obtain ⟨here, later⟩ := apart
    obtain ⟨⟨behind, cut, isGap⟩, -⟩ := gapped
    rw [← List.append_cancel_left (split.symm.trans cut)] at isGap
    have filled : word ++ rest ≠ [] := by
      obtain ⟨c, w, rfl, -⟩ := taken_of_spells longest.2.1
      exact List.cons_ne_nil _ _
    rw [split] at single
    obtain ⟨inGap, inWord⟩ := not_or.1 (mt List.mem_append.2 single)
    have blanks := blank_of_gap isGap inGap filled
    have alone : ∀ c ∈ gap, StandsAlone c := fun c member => blank_alone c (blanks c member)
    have ends : l.isNumber = true → ∀ c ∈ rest.head?, continues word c = false := fun number =>
      number_ends longest number others covers fun next first => here next first number
    rw [split, spans_alone alone, spans_lexeme longest ends,
      ih covers (fun feed => inWord (List.mem_append_right _ feed)) later, others.covers covers]
    rfl

/-! Coloured spans -/

/-- The styles that tell what a piece of text is. Names that are not called, blanks, operators and
punctuation have others. -/
def coloured : List Style :=
  [Theme.keyword, Theme.number, Theme.quoted, Theme.callee, Theme.comment]

theorem mark_uncoloured (c : Char) : (mark c).style ∉ coloured := by
  have styles : Theme.bracket ∉ coloured ∧ Theme.code ∉ coloured := by decide
  rw [mark, markStyle]
  split
  · exact styles.1
  · exact styles.2

theorem not_shows_mark (coloured : s.style ∈ coloured) : ¬Shows s (word.map mark) front := by
  intro shown
  obtain ⟨c, -, rfl⟩ := List.mem_map.1 shown.mem
  exact mark_uncoloured c coloured

theorem text_marks (cs : List Char) : (StyledLine.text (cs.map mark)).toList = cs := by
  rw [StyledLine.toList_text, List.flatMap_map]
  simp [mark]

theorem text_lexemeSpans (word : List Char) (l : Lexeme) (rest : List Char) :
    (StyledLine.text (lexemeSpans word l rest)).toList = word := by
  unfold lexemeSpans
  split
  · rw [StyledLine.toList_text, List.flatMap_singleton, String.toList_ofList]
  · exact text_marks word

theorem shows_gapSpans {body : List Char} (uncommented : '#' ∉ front) :
    Shows ⟨String.ofList ('#' :: body), Theme.comment⟩ (gapSpans (front ++ '#' :: body)) front := by
  induction front with
  | nil =>
    rw [List.nil_append, gapSpans, if_pos rfl]
    exact .here
  | cons c front ih =>
    obtain ⟨here, later⟩ := not_or.1 (mt List.mem_cons.2 uncommented)
    have shown := Shows.later (x := mark c) (ih later)
    rw [List.cons_append, gapSpans, if_neg (Ne.symm here)]
    rw [mark, String.toList_singleton] at shown
    exact shown

theorem Shows.of_gapSpans (shown : Shows s (gapSpans gap) front) (coloured : s.style ∈ coloured) :
    ∃ body, gap = front ++ '#' :: body ∧ '#' ∉ front ∧
      s = ⟨String.ofList ('#' :: body), Theme.comment⟩ := by
  induction gap generalizing front with
  | nil => cases shown
  | cons c gap ih =>
    rw [gapSpans] at shown
    split at shown
    · rename_i opens
      cases shown with
      | here => exact ⟨gap, by rw [opens]; rfl, by simp, by rw [opens]⟩
      | later below => cases below
    · rename_i plain
      cases shown with
      | here => exact absurd coloured (mark_uncoloured c)
      | later below =>
        obtain ⟨body, rfl, uncommented, rfl⟩ := ih below
        rw [mark, String.toList_singleton]
        exact ⟨body, rfl, by simp [Ne.symm plain, uncommented], rfl⟩

theorem Shows.of_lexemeSpans (shown : Shows s (lexemeSpans word l rest) front)
    (coloured : s.style ∈ coloured) :
    front = [] ∧ s.text = String.ofList word ∧ l.style? (rest.head? = some '(') = some s.style := by
  unfold lexemeSpans at shown
  split at shown
  · rename_i style known
    cases shown with
    | here => exact ⟨rfl, rfl, known⟩
    | later below => cases below
  · exact absurd shown (not_shows_mark coloured)

theorem Shows.later_cut (shown : Shows s (cutSpans last cuts) front) (k : Cut) :
    Shows s (cutSpans last (k :: cuts)) (k.gap ++ k.word ++ front) := by
  have behind := (shown.behind (lexemeSpans k.word k.lexeme
    (cuts.flatMap (fun c => c.gap ++ c.word) ++ last))).behind (k.gap.map mark)
  rwa [text_marks, text_lexemeSpans, ← List.append_assoc k.gap] at behind

theorem shows_of_stands {style : Style} (stands : Stands last c cuts front rest)
    (known : c.lexeme.style? (rest.head? = some '(') = some style) :
    Shows ⟨String.ofList c.word, style⟩ (cutSpans last cuts) front := by
  induction stands with
  | @here cuts =>
    have first : Shows ⟨String.ofList c.word, style⟩
        (lexemeSpans c.word c.lexeme (cuts.flatMap (fun c => c.gap ++ c.word) ++ last)) [] := by
      rw [lexemeSpans, known]
      exact .here
    have shown := (first.before (cutSpans last cuts)).behind (c.gap.map mark)
    rw [text_marks, List.append_nil] at shown
    exact shown
  | @later k _ _ _ _ ih => exact (ih known).later_cut k

theorem shows_last {body : List Char} (cuts : List Cut) (uncommented : '#' ∉ front) :
    Shows ⟨String.ofList ('#' :: body), Theme.comment⟩ (cutSpans (front ++ '#' :: body) cuts)
      (cuts.flatMap (fun c => c.gap ++ c.word) ++ front) := by
  induction cuts with
  | nil => exact shows_gapSpans uncommented
  | cons k cuts ih =>
    rw [List.flatMap_cons, List.append_assoc (_ ++ _)]
    exact ih.later_cut k

theorem Shows.of_cutSpans (shown : Shows s (cutSpans last cuts) front) (coloured : s.style ∈ coloured) :
    (∃ c rest, Stands last c cuts front rest ∧ s.text = String.ofList c.word ∧
      c.lexeme.style? (rest.head? = some '(') = some s.style) ∨
    ∃ blanks body, last = blanks ++ '#' :: body ∧ '#' ∉ blanks ∧
      front = cuts.flatMap (fun c => c.gap ++ c.word) ++ blanks ∧
      s = ⟨String.ofList ('#' :: body), Theme.comment⟩ := by
  induction cuts generalizing front with
  | nil =>
    obtain ⟨body, split, uncommented, same⟩ := shown.of_gapSpans coloured
    exact .inr ⟨front, body, split, uncommented, rfl, same⟩
  | cons k cuts ih =>
    rcases shown.of_append with inGap | ⟨behind, rfl, word⟩
    · exact absurd inGap (not_shows_mark coloured)
    · rw [text_marks]
      rcases word.of_append with inWord | ⟨behind, rfl, below⟩
      · obtain ⟨rfl, text, known⟩ := inWord.of_lexemeSpans coloured
        rw [List.append_nil]
        exact .inl ⟨k, _, .here, text, known⟩
      · rw [text_lexemeSpans, ← List.append_assoc]
        rcases ih below with ⟨c, rest, stands, text, known⟩ | ⟨blanks, body, split, plain, rfl, same⟩
        · exact .inl ⟨c, rest, .later stands, text, known⟩
        · exact .inr ⟨blanks, body, split, plain, by simp, same⟩

theorem behind_of_plain (single : '\n' ∉ text) : Location.behind text = ⟨1, text.length + 1⟩ := by
  rw [(Text.LastLine.only single).behind_eq, List.length_nil, Nat.add_comm text.length]

/-- On a line that lexes with its numbers apart, each keyword, name, number and text is one span at its
column, in the style of its kind: a name that stands before a parenthesis is shown as one that is
called. The comment of the last gap is one span. No other span has the style of a keyword, a number, a
text, a called name or a comment, and no two spans stand at one column. -/
theorem line_agrees {source : String} {tokens : List Token} {d : Division}
    (lexed : tokenize source = .ok tokens) (single : '\n' ∉ source.toList)
    (divides : Divides source.toList d) (apart : NumbersApart d.cuts) :
    (∀ t ∈ tokens, ∀ l, t.kind = some l → ∃ front word rest,
      source.toList = front ++ (word ++ rest) ∧ LongestLexeme (word ++ rest) word l ∧
      t.location = ⟨1, front.length + 1⟩ ∧
      ∀ style, l.style? (rest.head? = some '(') = some style →
        Shows ⟨String.ofList word, style⟩ (line source) front) ∧
    (∀ blanks body, d.gap = blanks ++ '#' :: body → '#' ∉ blanks →
      ∃ front, source.toList = front ++ '#' :: body ∧
        Shows ⟨String.ofList ('#' :: body), Theme.comment⟩ (line source) front) ∧
    (∀ s front, Shows s (line source) front → s.style ∈ coloured →
      (∃ l rest, ⟨some l, ⟨1, front.length + 1⟩⟩ ∈ tokens ∧
        source.toList = front ++ (s.text.toList ++ rest) ∧
        LongestLexeme (s.text.toList ++ rest) s.text.toList l ∧
        l.style? (rest.head? = some '(') = some s.style) ∨
      ∃ blanks body, d.gap = blanks ++ '#' :: body ∧ '#' ∉ blanks ∧
        source.toList = front ++ '#' :: body ∧ s = ⟨String.ofList ('#' :: body), Theme.comment⟩) ∧
    ∀ s x front, Shows s (line source) front → Shows x (line source) front → s = x := by
  obtain ⟨d', divides', covers, rfl⟩ := exists_covering lexed
  obtain rfl := divides_unique divides divides'
  have whole := divides.covers covers
  have cut : line source = cutSpans d'.gap d'.cuts := spans_divided divides covers single apart
  have column {front rest : List Char} (split : source.toList = front ++ rest) :
      Location.behind front = ⟨1, front.length + 1⟩ :=
    behind_of_plain fun feed => single (split ▸ List.mem_append_left rest feed)
  refine ⟨fun t member l kind => ?_, fun blanks body last plain => ?_, fun s front shown colour => ?_,
    fun s x front => Shows.unique (spans_filled [] source.toList)⟩
  · have lexeme : t ∈ tokensOf [] d'.cuts := by
      rcases List.mem_append.1 member with member | last
      · exact member
      · rw [List.mem_singleton.1 last] at kind
        cases kind
    obtain ⟨c, front, rest, stands, rfl⟩ := exists_stands d'.gap [] lexeme
    obtain rfl := Option.some.inj kind
    have split := whole.trans stands.whole
    refine ⟨front, c.word, rest, split, stands.longest divides covers, column split, ?_⟩
    intro style known
    rw [cut]
    exact shows_of_stands stands known
  · rw [cut, last]
    rw [last, ← List.append_assoc] at whole
    exact ⟨_, whole, shows_last d'.cuts plain⟩
  · rw [cut] at shown
    rcases shown.of_cutSpans colour with
      ⟨c, rest, stands, text, known⟩ | ⟨blanks, body, last, plain, rfl, rfl⟩
    · have split := whole.trans stands.whole
      have member := stands.mem_tokensOf []
      rw [List.nil_append, column split] at member
      rw [text, String.toList_ofList]
      exact .inl ⟨c.lexeme, rest, List.mem_append_left _ member, split,
        stands.longest divides covers, known⟩
    · rw [last, ← List.append_assoc] at whole
      exact .inr ⟨blanks, body, last, plain, whole, rfl⟩

/-- A number apart from a called name, and a comment that holds a keyword. -/
def calledLine : Division :=
  ⟨[⟨[], ['2'], .integer 2⟩, ⟨[' '], ['f'], .name "f"⟩, ⟨[], ['('], .symbol .openParen⟩],
    [' ', '#', 'i', 'f'], []⟩

theorem divides_calledLine : Divides "2 f( #if".toList calledLine := by
  have comment : Divides [' ', '#', 'i', 'f'] ⟨[], [' ', '#', 'i', 'f'], []⟩ :=
    .stop rfl ((longestGap_iff _ _).2 rfl) fun word l front => by
      rw [List.prefix_nil.1 front]
      exact not_spells_nil l
  have opened := divides_of_lexemeAt [] '(' [' ', '#', 'i', 'f'] rfl rfl comment
  have called := divides_of_lexemeAt [' '] 'f' ['(', ' ', '#', 'i', 'f'] rfl rfl opened
  exact divides_of_lexemeAt [] '2' [' ', 'f', '(', ' ', '#', 'i', 'f'] rfl rfl called

theorem line_agrees_calledLine :
    ∃ tokens, tokenize "2 f( #if" = .ok tokens ∧ '\n' ∉ "2 f( #if".toList ∧
      Divides "2 f( #if".toList calledLine ∧ NumbersApart calledLine.cuts ∧
      Shows ⟨"#if", Theme.comment⟩ (line "2 f( #if") "2 f( ".toList ∧
      ∀ x, Shows x (line "2 f( #if") "2 f( ".toList → x = ⟨"#if", Theme.comment⟩ := by
  have lexed := scan_of_covered divides_calledLine rfl []
  have single : '\n' ∉ "2 f( #if".toList := by decide
  have apart : NumbersApart calledLine.cuts := by
    refine ⟨fun next head _ _ => ?_, nofun, nofun, trivial⟩
    cases head
    exact List.cons_ne_nil _ _
  obtain ⟨-, comment, -, unique⟩ := line_agrees lexed single divides_calledLine apart
  obtain ⟨front, split, shown⟩ := comment [' '] ['i', 'f'] rfl (by decide)
  have before : "2 f( ".toList = front := List.append_cancel_right split
  rw [before]
  exact ⟨_, lexed, single, divides_calledLine, apart, shown, fun x other => unique _ _ _ other shown⟩

end Highlight
end ScriptFrontend
