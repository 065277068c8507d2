import ScriptFrontend.Proofs.Lexical.Ascending

/-!
# Gaps put between lexemes

A gap whose comments are all closed may be put in front of any lexeme, and behind the last one unless
a comment is open there: the text is divided into the same lexemes. A lexeme is the longest in front
of a text because of the one character behind it, and no lexeme goes on with a character that opens a
gap.
-/
namespace ScriptFrontend
namespace Scanning
variable {c : Char} {w cs rest gap more word text front back : List Char} {l k : Lexeme}
  {cuts : List Cut} {d : Division}

/-! Gaps behind gaps -/

/-- A gap whatever stands behind it: every comment in it is closed by a line feed. -/
def ClosedGap (gap : List Char) : Prop := ∀ rest, GapBefore rest gap

theorem GapBefore.append (h : GapBefore back gap) (nonempty : back ≠ []) (k : GapBefore rest more) :
    GapBefore rest (gap ++ more) := by
  induction h with
  | nil => exact k
  | blank blank _ ih => exact .blank blank ih
  | comment inside _ ih =>
    rw [List.cons_append, List.append_assoc, List.cons_append]
    exact .comment inside ih
  | lastComment _ final => exact absurd final nonempty

theorem GapBefore.closed (h : GapBefore back gap) (nonempty : back ≠ []) : ClosedGap gap := by
  intro rest
  have whole := h.append nonempty (.nil : GapBefore rest [])
  rwa [List.append_nil] at whole

theorem ClosedGap.append (h : ClosedGap gap) (k : ClosedGap more) : ClosedGap (gap ++ more) :=
  fun rest => (h ['\n']).append (List.cons_ne_nil _ _) (k rest)

/-- A text ends in a comment if its last gap ends in one that no line feed closes. -/
def EndsInComment (text : List Char) : Prop :=
  ∃ d, Divides text d ∧ ∃ body, '#' :: body <:+ d.gap ∧ '\n' ∉ body

theorem GapBefore.closed_of_ended (h : GapBefore rest gap)
    (ended : ∀ body, '#' :: body <:+ gap → '\n' ∈ body) : ClosedGap gap := by
  induction h with
  | nil => exact fun _ => .nil
  | blank blank _ ih =>
    have later := ih fun body inside => ended body (inside.trans (List.suffix_cons _ _))
    exact fun rest => .blank blank (later rest)
  | @comment body gap plain _ ih =>
    have below : gap <:+ '#' :: (body ++ '\n' :: gap) := ⟨'#' :: (body ++ ['\n']), by simp⟩
    have later := ih fun body inside => ended body (inside.trans below)
    exact fun rest => .comment plain (later rest)
  | lastComment plain _ => exact absurd (ended _ List.suffix_rfl) plain

def OpensGap (c : Char) : Prop := c ∈ [' ', '\t', '\r', '\n'] ∨ c = '#'

theorem GapBefore.opensGap (h : GapBefore rest (c :: gap)) : OpensGap c := by
  cases h with
  | blank blank _ => exact .inl blank
  | comment => exact .inr rfl
  | lastComment => exact .inr rfl

theorem splitGap_eq_nil_iff : (splitGap false (c :: cs)).1 = [] ↔ ¬OpensGap c := by
  constructor
  · rintro none (blank | rfl)
    · rw [splitGap_blank blank] at none
      cases none
    · rw [splitGap_comment] at none
      cases none
  · intro plain
    obtain ⟨unblank, uncommented⟩ := not_or.1 plain
    rw [splitGap_other unblank uncommented]

theorem longestGap_append_iff (closed : ClosedGap gap) :
    LongestGap (gap ++ rest) gap ↔ (splitGap false rest).1 = [] := by
  rw [longestGap_iff, splitGap_of_gapBefore (closed rest)]
  exact List.self_eq_append_right

/-! Lexemes in front of other text -/

theorem isNamePart_of_opensGap (h : OpensGap c) : isNamePart c = false := by
  rcases h with blank | rfl
  · exact isNamePart_of_blank c blank
  · rfl

theorem isDigit_of_opensGap (h : OpensGap c) : Decimal.isDigit c = false := by
  rcases h with blank | rfl
  · exact isDigit_of_blank c blank
  · rfl

theorem isNamePart_of_isNameStart (h : isNameStart c = true) : isNamePart c = true := by
  rw [isNameStart, Bool.or_eq_true] at h
  rcases h with letter | underscore
  · simp [isNamePart, letter]
  · simp [isNamePart, underscore]

theorem symbol_gapless (s : Symbol) : ∀ c ∈ s.spelling.toList, ¬OpensGap c := by
  have visible : s.spelling.toList.all (fun c => c ∉ [' ', '\t', '\r', '\n', '#']) = true := by
    cases s <;> decide
  intro c member opens
  have other := of_decide_eq_true (List.all_eq_true.1 visible c member)
  rcases opens with blank | rfl
  · exact other (List.mem_append_left ['#'] blank)
  · exact other (by decide)

/-- No lexeme ends with a character that opens a gap. -/
theorem Spells.last_gapless (h : Spells (word ++ [c]) l) : ¬OpensGap c := by
  intro opens
  have last : c ∈ word ++ [c] := by simp
  generalize whole : word ++ [c] = spelled at h last
  cases h with
  | text plain =>
    have quote := congrArg List.getLast? whole
    rw [List.getLast?_concat, ← List.cons_append, List.getLast?_concat] at quote
    rw [Option.some.inj quote] at opens
    exact absurd opens (by unfold OpensGap; decide)
  | integer _ digits =>
    have digit := digits c last
    rw [isDigit_of_opensGap opens] at digit
    cases digit
  | decimal _ digits places =>
    rcases List.mem_append.1 last with inside | behind
    · have digit := digits c inside
      rw [isDigit_of_opensGap opens] at digit
      cases digit
    · rcases List.mem_cons.1 behind with rfl | inside
      · exact absurd opens (by unfold OpensGap; decide)
      · have digit := places c inside
        rw [isDigit_of_opensGap opens] at digit
        cases digit
  | name start part _ =>
    have named : isNamePart c = true := by
      rcases List.mem_cons.1 last with rfl | inside
      · exact isNamePart_of_isNameStart start
      · exact part c inside
    rw [isNamePart_of_opensGap opens] at named
    cases named
  | symbol s => exact symbol_gapless s c last opens

theorem spells_quoted (h : Spells ('"' :: w) l) : ∃ content, '"' ∉ content ∧ w = content ++ ['"'] := by
  generalize whole : '"' :: w = spelled at h
  cases h with
  | text plain => exact ⟨_, plain, List.tail_eq_of_cons_eq whole⟩
  | integer _ digits => exact absurd (digits '"' (whole ▸ List.mem_cons_self)) (by decide)
  | @decimal digits places nonempty all _ =>
    obtain ⟨d, digits, rfl⟩ := List.exists_cons_of_ne_nil nonempty
    cases whole
    exact absurd (all '"' List.mem_cons_self) (by decide)
  | name start _ _ =>
    cases whole
    exact absurd start (by decide)
  | symbol s =>
    have unquoted : '"' ∉ s.spelling.toList := by cases s <;> decide
    exact absurd (whole ▸ List.mem_cons_self) unquoted

/-- What lies between a lexeme and a longer one of which it is the front is a lexeme, too: the shorter
one can be continued by a single character. -/
theorem Spells.next (short : Spells word l) (long : Spells (word ++ c :: more) k) :
    ∃ m, Spells (word ++ [c]) m := by
  have nonempty : word ≠ [] := by
    rintro rfl
    exact not_spells_nil l short
  have front : word ++ [c] <+: word ++ c :: more := ⟨more, by simp⟩
  generalize whole : word ++ c :: more = spelled at long front
  cases long with
  | @text content plain =>
    obtain ⟨q, w, rfl⟩ := List.exists_cons_of_ne_nil nonempty
    obtain ⟨rfl, behind⟩ := List.cons_eq_cons.1 whole
    obtain ⟨inner, -, rfl⟩ := spells_quoted short
    -- The closing quote of the shorter text would stand inside the longer one.
    have inside : '"' ∈ content := by
      have cut : (inner ++ '"' :: c :: more).dropLast = (content ++ ['"']).dropLast := by
        rw [← behind]
        simp
      rw [List.dropLast_concat, List.dropLast_append_cons, List.dropLast_cons_cons] at cut
      simp [← cut]
    exact absurd inside plain
  | integer _ digits =>
    exact ⟨_, .integer (by simp) fun d member => digits d (front.subset member)⟩
  | @decimal digits places filled all others =>
    rcases List.prefix_or_prefix_of_prefix front (List.prefix_append digits ('.' :: places)) with
      inside | ⟨behind, cut⟩
    · exact ⟨_, .integer (by simp) fun d member => all d (inside.subset member)⟩
    · rw [← cut] at front ⊢
      rw [List.prefix_append_right_inj] at front
      cases behind with
      | nil =>
        rw [List.append_nil]
        exact ⟨_, .integer filled all⟩
      | cons point fraction =>
        obtain ⟨rfl, part⟩ := List.cons_prefix_cons.1 front
        exact ⟨_, .decimal filled all fun d member => others d (part.subset member)⟩
  | @name d tail start part _ =>
    obtain ⟨q, w, rfl⟩ := List.exists_cons_of_ne_nil nonempty
    obtain ⟨rfl, inside⟩ := List.cons_prefix_cons.1 front
    exact ⟨_, spells_ofWord start fun d member => part d (inside.subset member)⟩
  | symbol s =>
    obtain ⟨q, w, rfl⟩ := List.exists_cons_of_ne_nil nonempty
    rcases symbol_forms s with ⟨d, tail, form, start, part, _⟩ | ⟨d, e, form, -⟩ | ⟨d, form, -⟩
    · rw [form] at front
      obtain ⟨rfl, inside⟩ := List.cons_prefix_cons.1 front
      exact ⟨_, spells_ofWord start fun d member => part d (inside.subset member)⟩
    · rw [form] at whole
      obtain ⟨rfl, behind⟩ := List.cons_eq_cons.1 whole
      have alone : w = [] := by
        have count : w.length + (more.length + 1) = 1 := by simpa using congrArg List.length behind
        exact List.eq_nil_of_length_eq_zero (by omega)
      subst alone
      cases behind
      exact ⟨_, form ▸ Spells.symbol s⟩
    · rw [form] at whole
      have count := congrArg List.length whole
      simp at count

/-- A lexeme stays the longest if what comes behind it starts as before, or with a gap. -/
theorem LongestLexeme.before (h : LongestLexeme (word ++ rest) word l)
    (next : ∀ c ∈ back.head?, OpensGap c ∨ rest.head? = some c) :
    LongestLexeme (word ++ back) word l := by
  obtain ⟨-, spelled, longest⟩ := h
  refine ⟨List.prefix_append _ _, spelled, fun other k front long => Nat.le_of_not_lt fun longer => ?_⟩
  obtain ⟨more, rfl⟩ : word <+: other :=
    List.prefix_of_prefix_length_le (List.prefix_append word back) front (by omega)
  cases more with
  | nil => simp at longer
  | cons c more =>
    obtain ⟨m, step⟩ := spelled.next long
    rw [List.prefix_append_right_inj] at front
    obtain ⟨behind, rfl⟩ := front
    rcases next c rfl with opens | same
    · exact step.last_gapless opens
    · obtain ⟨rest, rfl⟩ := List.head?_eq_some_iff.1 same
      have bound := longest (word ++ [c]) m ⟨rest, by simp⟩ step
      rw [List.length_append, List.length_singleton] at bound
      omega

/-- A gap in front of a lexeme stays the longest whatever comes behind the lexeme. -/
theorem LongestGap.before (h : LongestGap (gap ++ (word ++ rest)) gap) (spelled : Spells word l)
    (back : List Char) : ClosedGap gap ∧ LongestGap (gap ++ (word ++ back)) gap := by
  obtain ⟨c, w, rfl, -⟩ := taken_of_spells spelled
  have closed : ClosedGap gap := by
    obtain ⟨⟨behind, split, isGap⟩, -⟩ := h
    rw [← List.append_cancel_left split] at isGap
    exact isGap.closed (List.cons_ne_nil _ _)
  refine ⟨closed, ?_⟩
  rw [longestGap_append_iff closed] at h ⊢
  exact splitGap_eq_nil_iff.2 (splitGap_eq_nil_iff.1 h)

/-! Divisions -/

/-- The places of a division where a gap may be put in, as the text in front of them: before each
lexeme, and at the end if the last gap is closed. -/
inductive Boundary (last : List Char) : List Cut → List Char → Prop where
  | here {c : Cut} {cuts : List Cut} : Boundary last (c :: cuts) c.gap
  | atEnd : ClosedGap last → Boundary last [] last
  | later {c : Cut} {cuts : List Cut} {front : List Char} :
      Boundary last cuts front → Boundary last (c :: cuts) (c.gap ++ c.word ++ front)

theorem Boundary.isPrefix {last : List Char} (h : Boundary last cuts front) :
    front <+: cuts.flatMap (fun c => c.gap ++ c.word) ++ last := by
  induction h with
  | here =>
    rw [List.flatMap_cons, List.append_assoc, List.append_assoc]
    exact List.prefix_append _ _
  | atEnd => exact List.prefix_rfl
  | later _ ih =>
    rw [List.flatMap_cons, List.append_assoc (_ ++ _), List.prefix_append_right_inj]
    exact ih

theorem boundary_atEnd {last : List Char} (closed : ClosedGap last) (cuts : List Cut) :
    Boundary last cuts (cuts.flatMap (fun c => c.gap ++ c.word) ++ last) := by
  induction cuts with
  | nil => exact .atEnd closed
  | cons c cuts ih =>
    rw [List.flatMap_cons, List.append_assoc (_ ++ _)]
    exact .later ih

theorem boundary_of_token {t : Token} (before last : List Char) (member : t ∈ tokensOf before cuts) :
    ∃ front, Boundary last cuts front ∧ t.location = .behind (before ++ front) := by
  induction cuts generalizing before with
  | nil => cases member
  | cons c cuts ih =>
    rcases List.mem_cons.1 member with rfl | member
    · exact ⟨c.gap, .here, rfl⟩
    · obtain ⟨front, boundary, place⟩ := ih (before ++ c.gap ++ c.word) member
      exact ⟨_, .later boundary, by simpa using place⟩

theorem Divides.lastGap (h : Divides text d) : GapBefore d.left d.gap := by
  induction h with
  | stop split longest _ =>
    obtain ⟨⟨rest, cut, isGap⟩, -⟩ := longest
    rwa [List.append_cancel_left (split.symm.trans cut)]
  | cut _ _ _ _ ih => exact ih

theorem Divides.insert (h : Divides text d) (covers : d.left = []) (cut : text = front ++ back)
    (boundary : Boundary d.gap d.cuts front) (closed : ClosedGap more) :
    ∃ d', Divides (front ++ (more ++ back)) d' ∧ d'.left = [] ∧
      d'.cuts.map (·.lexeme) = d.cuts.map (·.lexeme) := by
  induction h generalizing front with
  | @stop text gap left split longest none =>
    dsimp only at covers boundary
    subst covers
    cases boundary with
    | atEnd ended =>
      rw [split] at cut longest
      obtain rfl := List.append_cancel_left cut
      rw [longestGap_append_iff ended, ← longestGap_append_iff (ended.append closed)] at longest
      rw [List.append_nil] at longest ⊢
      exact ⟨⟨[], gap ++ more, []⟩, .stop (List.append_nil _).symm longest none, rfl, rfl⟩
  | @cut text gap word rest l d split longestGap longest others ih =>
    rw [split] at cut longestGap
    have spelled := longest.2.1
    dsimp only at covers boundary
    cases boundary with
    | here =>
      dsimp only at cut ⊢
      obtain ⟨ended, -⟩ := longestGap.before spelled rest
      rw [longestGap_append_iff ended] at longestGap
      have widened := (longestGap_append_iff (ended.append closed)).2 longestGap
      have same := List.append_cancel_left cut
      rw [← same, ← List.append_assoc]
      exact ⟨_, .cut rfl widened longest others, covers, rfl⟩
    | @later _ _ front boundary =>
      dsimp only at cut ⊢
      have same : rest = front ++ back := by simpa using cut
      obtain ⟨d', divides, covered, lexemes⟩ := ih covers same boundary
      -- What comes behind the lexeme starts as before, unless the gap is put in right there.
      have next : ∀ c ∈ (front ++ (more ++ back)).head?, OpensGap c ∨ rest.head? = some c := by
        intro c head
        rw [same]
        cases front with
        | cons e front => exact .inr head
        | nil =>
          cases more with
          | nil => exact .inr head
          | cons e more =>
            cases head
            exact .inl (closed []).opensGap
      refine ⟨⟨⟨gap, word, l⟩ :: d'.cuts, d'.gap, d'.left⟩, ?_, covered, by simp [lexemes]⟩
      have assoc : gap ++ word ++ front ++ (more ++ back) = gap ++ (word ++ (front ++ (more ++ back))) := by
        simp
      rw [assoc]
      exact .cut rfl (longestGap.before spelled _).2 (longest.before next) divides

/-! Texts -/

theorem behind_injective (h : front <+: text) (k : back <+: text)
    (same : Location.behind front = .behind back) : front = back := by
  rcases List.prefix_or_prefix_of_prefix h k with ⟨more, rfl⟩ | ⟨more, rfl⟩
  · cases more with
    | nil => exact (List.append_nil front).symm
    | cons c more => exact absurd same (Location.before_behind front (List.cons_ne_nil c more)).ne
  · cases more with
    | nil => exact List.append_nil back
    | cons c more => exact absurd same.symm (Location.before_behind back (List.cons_ne_nil c more)).ne

theorem kinds_tokensOf (before : List Char) (cuts : List Cut) :
    (tokensOf before cuts).map (·.kind) = cuts.map fun c => some c.lexeme := by
  induction cuts generalizing before with
  | nil => rfl
  | cons c cuts ih => simp [tokensOf, ih]

end Scanning

open Scanning

/-- The place between two pieces of an accepted text is where a lexeme starts, or the end of the text
outside of comments. -/
def BetweenTokens (tokens : List Token) (front back : String) : Prop :=
  (∃ t ∈ tokens, t.kind ≠ none ∧ t.location = .behind front.toList) ∨
    back = "" ∧ ¬EndsInComment front.toList

theorem tokenize_insert {front back gap : String} {tokens : List Token}
    (accepted : tokenize (front ++ back) = .ok tokens) (place : BetweenTokens tokens front back)
    (closed : ClosedGap gap.toList) :
    ∃ tokens', tokenize (front ++ gap ++ back) = .ok tokens' ∧
      tokens'.map (·.kind) = tokens.map (·.kind) := by
  obtain ⟨d, divides, covers, rfl⟩ := exists_covering accepted
  have whole : front.toList ++ back.toList = d.covered := by
    have all := covered_append_left divides
    rwa [covers, List.append_nil, String.toList_append] at all
  have boundary : Boundary d.gap d.cuts front.toList := by
    rcases place with ⟨t, member, kind, place⟩ | ⟨rfl, outside⟩
    · have lexeme : t ∈ tokensOf [] d.cuts := by
        rcases List.mem_append.1 member with member | last
        · exact member
        · rw [List.mem_singleton.1 last] at kind
          exact absurd rfl kind
      obtain ⟨start, boundary, here⟩ := boundary_of_token [] d.gap lexeme
      have within : start <+: front.toList ++ back.toList := whole ▸ boundary.isPrefix
      have same := behind_injective within (List.prefix_append _ _) (here.symm.trans place)
      exact same ▸ boundary
    · rw [String.toList_empty, List.append_nil] at whole
      rw [String.append_empty] at divides
      have ended : ClosedGap d.gap := divides.lastGap.closed_of_ended fun body inside =>
        Decidable.byContradiction fun plain => outside ⟨d, divides, body, inside, plain⟩
      exact whole ▸ boundary_atEnd ended d.cuts
  rw [String.toList_append] at divides
  obtain ⟨d', divides', covers', lexemes⟩ := divides.insert covers rfl boundary closed
  have joined : (front ++ gap ++ back).toList = front.toList ++ (gap.toList ++ back.toList) := by
    simp [String.toList_append]
  have found := scan_of_covered divides' covers' []
  rw [← joined] at found
  refine ⟨_, found, ?_⟩
  rw [List.map_append, List.map_append, kinds_tokensOf, kinds_tokensOf]
  have same := congrArg (List.map some) lexemes
  rw [List.map_map, List.map_map] at same
  exact congrArg (· ++ [none]) same

end ScriptFrontend
