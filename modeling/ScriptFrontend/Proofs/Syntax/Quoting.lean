import ScriptFrontend.Proofs.Lexical.LastLine
import ScriptFrontend.Proofs.Syntax.Joining
import ScriptFrontend.Proofs.Syntax.Recorded

/-!
# What diagnostics quote

A diagnostic of a text quotes the line on which its token starts, and the caret below stands under
the token's first character, or behind the line if the token is the end of the input. Only behind a
last line feed there is nothing to quote.
-/
namespace ScriptFrontend
open Scanning

/-! The caret -/

namespace Diagnostic

/-- The quoted line has a tab at the index. -/
def TabAt (d : Diagnostic) (k : Nat) : Prop :=
  ∃ line, d.sourceLine = some line ∧ line.toList[k]? = some '\t'

theorem getElem?_padding (shown : List Char) {width k : Nat} (within : k < width) :
    let kept := shown.take width
    (kept.map padding ++ List.replicate (width - kept.length) ' ')[k]? =
      some (if shown[k]? = some '\t' then '\t' else ' ') := by
  intro kept
  have count : (kept.map padding).length = min width shown.length := by
    rw [List.length_map, List.length_take]
  rcases Nat.lt_or_ge k shown.length with inside | behind
  · have here : kept[k]? = some shown[k] := by
      rw [List.getElem?_take_of_lt within, List.getElem?_eq_getElem inside]
    have short : k < (kept.map padding).length := by omega
    rw [List.getElem?_append_left short, List.getElem?_map, here, List.getElem?_eq_getElem inside]
    by_cases tab : shown[k] = '\t' <;> simp [padding, tab]
  · have past : (kept.map padding).length ≤ k := by omega
    have index : k - (kept.map padding).length < width - kept.length := by
      rw [List.length_map] at count ⊢
      omega
    rw [List.getElem?_append_right past, List.getElem?_replicate, if_pos index,
      List.getElem?_eq_none behind]
    rfl

theorem caret_padding (d : Diagnostic) :
    ∃ padding, d.caret = String.ofList (padding ++ ['^']) ∧
      padding.length = d.location.column - 1 ∧
      ∀ k, k < d.location.column - 1 →
        (d.TabAt k → padding[k]? = some '\t') ∧ (¬d.TabAt k → padding[k]? = some ' ') := by
  have tab (k : Nat) : d.TabAt k ↔ (d.sourceLine.getD "").toList[k]? = some '\t' := by
    unfold TabAt
    cases d.sourceLine <;> simp
  refine ⟨_, rfl, ?_, fun k within => ?_⟩
  · rw [List.length_append, List.length_map, List.length_replicate, List.length_take]
    omega
  · rw [getElem?_padding _ within, tab]
    constructor
    · intro here
      rw [if_pos here]
    · intro other
      rw [if_neg other]

end Diagnostic

/-! The line -/

/-- The diagnostic quotes the line of the token with the index and has the token's place there. -/
structure Diagnostic.PointsAt (text : String) (cuts : List Cut) (i : Nat) (t : Token)
    (d : Diagnostic) : Prop where
  place : d.location = t.location
  counted : 0 < d.location.line ∧ 0 < d.location.column
  line : d.sourceLine = (Text.lines text)[d.location.line - 1]?
  absent : d.sourceLine = none ↔ t.kind = none ∧ text.toList.getLast? = some '\n'
  lexeme : ∀ line l, d.sourceLine = some line → t.kind = some l →
    ∃ cut c, cuts[i]? = some cut ∧ cut.lexeme = l ∧ cut.word.head? = some c ∧
      line.toList[d.location.column - 1]? = some c
  ended : ∀ line, d.sourceLine = some line → t.kind = none →
    d.location.column - 1 = line.toList.length

section
variable {text : String} {d : Diagnostic} {t : Token} {front : List Char} {cuts : List Cut} {i : Nat}

theorem Location.behind_pos (front : List Char) :
    0 < (Location.behind front).line ∧ 0 < (Location.behind front).column :=
  ⟨Nat.add_pos_left Nat.one_pos _, Nat.add_pos_left Nat.one_pos _⟩

theorem nthLine?_behind (front : List Char) (all : List String) :
    Text.nthLine? all (Location.behind front).line = all[(Location.behind front).line - 1]? :=
  if_neg (Nat.ne_of_gt (Location.behind_pos front).1)

theorem Diagnostic.pointsAt_lexeme {cut : Cut} {rest : List Char} (found : cuts[i]? = some cut)
    (spelled : Spells cut.word cut.lexeme) (whole : text.toList = front ++ (cut.word ++ rest))
    (token : t = ⟨some cut.lexeme, .behind front⟩) (place : d.location = t.location)
    (quoted : d.sourceLine = Text.nthLine? (Text.lines text) t.location.line) :
    d.PointsAt text cuts i t := by
  obtain ⟨c, w, word, visible⟩ := spelled.exists_visible
  obtain ⟨above, line, last⟩ := Text.exists_lastLine front
  rw [word] at whole
  obtain ⟨more, stands⟩ := last.quoted_at whole (by rintro rfl; simp at visible)
    (by rintro rfl; simp at visible)
  subst token
  have location : d.location = Location.behind front := place
  have text : d.sourceLine = some (String.ofList (line ++ c :: more)) := quoted.trans stands
  refine ⟨place, location ▸ Location.behind_pos front, ?_, ?_, ?_, ?_⟩
  · rw [quoted, place, nthLine?_behind]
  · rw [text]
    constructor
    · intro absent
      cases absent
    · intro ended
      cases ended.1
  · intro quotation l same kind
    obtain rfl := Option.some.inj (text.symm.trans same)
    refine ⟨cut, c, found, Option.some.inj kind, word ▸ rfl, ?_⟩
    rw [location, last.behind_eq, String.toList_ofList, Nat.add_sub_cancel_left,
      List.getElem?_append_right (Nat.le_refl _), Nat.sub_self]
    rfl
  · intro _ _ ended
    cases ended

theorem Diagnostic.pointsAt_end (nonempty : text.toList ≠ [])
    (token : t = ⟨none, .behind text.toList⟩) (place : d.location = t.location)
    (quoted : d.sourceLine = Text.nthLine? (Text.lines text) t.location.line) :
    d.PointsAt text cuts i t := by
  obtain ⟨above, line, last⟩ := Text.exists_lastLine text.toList
  have stands := last.quoted_end rfl
  subst token
  have location : d.location = Location.behind text.toList := place
  refine ⟨place, location ▸ Location.behind_pos _, ?_, ?_, ?_, ?_⟩
  · rw [quoted, place, nthLine?_behind]
  · rw [quoted, stands, ← last.eq_nil_iff nonempty]
    by_cases empty : line = []
    · simp [empty]
    · simp [empty]
  · intro _ _ _ running
    cases running
  · intro quotation same _
    rw [quoted, stands] at same
    split at same
    · cases same
    · cases same
      rw [location, last.behind_eq, String.toList_ofList, Nat.add_sub_cancel_left]

end

theorem recorded_of_empty {tokens : List Token} (accepted : tokenize "" = .ok tokens)
    (source : Option String) : recorded tokens source = [] := by
  have alone : tokenize "" = .ok [⟨none, ⟨1, 1⟩⟩] := (Scanner.scan_answer _).trans rfl
  obtain rfl := Except.ok.inj (accepted.symm.trans alone)
  rw [recorded, Token.lexemes, Parse.program_nil]
  rfl

/-- Every text that is divided into lexemes is parsed, and each of its diagnostics quotes the line of a
token, with the caret under the column of the token. -/
theorem diagnostics_quote_lines {text : String} {tokens : List Token}
    (accepted : tokenize text = .ok tokens) :
    ∃ o division, parse text = .ok o ∧
      o.diagnostics = (recorded tokens (some text)).map Prod.snd ∧
      Divides text.toList division ∧ division.left = [] ∧
      tokens = tokensOf [] division.cuts ++ [⟨none, .behind text.toList⟩] ∧
      ∀ p ∈ recorded tokens (some text),
        (∃ t, tokens[p.1]? = some t ∧ p.2.PointsAt text division.cuts p.1 t) ∧
          ∃ padding, p.2.caret = String.ofList (padding ++ ['^']) ∧
            padding.length = p.2.location.column - 1 ∧
            ∀ k, k < p.2.location.column - 1 →
              (p.2.TabAt k → padding[k]? = some '\t') ∧ (¬p.2.TabAt k → padding[k]? = some ' ') := by
  obtain ⟨division, divides, left, whole⟩ := exists_covering accepted
  refine ⟨_, division, parse_of_tokenize accepted, (recorded_diagnostics _ _).symm, divides, left, whole,
    fun p member => ⟨?_, p.2.caret_padding⟩⟩
  obtain ⟨t, found, place, quoted⟩ := exists_token_of_recorded accepted member
  refine ⟨t, found, ?_⟩
  rw [whole] at found
  rcases divides.exists_place [] found with ⟨cut, front, rest, here, spelled, stands, token⟩ | token
  · exact Diagnostic.pointsAt_lexeme here spelled stands token place quoted
  · have nonempty : text.toList ≠ [] := by
      intro empty
      obtain rfl : text = "" := String.toList_eq_nil_iff.1 empty
      rw [recorded_of_empty accepted] at member
      cases member
    exact Diagnostic.pointsAt_end nonempty token place quoted

/-- A text over two lines, and a faulty number behind it and a tab: the quoted line starts inside
the text and has lost its carriage return. -/
def tabbedLine : String := "\tx = \"a\r\nb\"\t1;\r\n"

theorem diagnostics_quote_tabbedLine :
    ∃ tokens o cuts, tokenize tabbedLine = .ok tokens ∧ parse tabbedLine = .ok o ∧
      o.diagnostics.map (fun d => (d.location, d.sourceLine, d.caret)) =
        [(⟨2, 4⟩, some "b\"\t1;", "  \t^")] ∧
      ∀ p ∈ recorded tokens (some tabbedLine),
        ∃ t, tokens[p.1]? = some t ∧ p.2.PointsAt tabbedLine cuts p.1 t := by
  have reported : (parse tabbedLine).toOption.map
      (·.diagnostics.map fun d => (d.location, d.sourceLine, d.caret)) =
        some [(⟨2, 4⟩, some "b\"\t1;", "  \t^")] := by decide +kernel
  cases scanned : tokenize tabbedLine with
  | error e =>
    rw [parse_of_refused scanned] at reported
    cases reported
  | ok tokens =>
    obtain ⟨o, division, parsed, -, -, -, -, quotes⟩ := diagnostics_quote_lines scanned
    rw [parsed] at reported
    exact ⟨tokens, o, division.cuts, rfl, parsed, Option.some.inj reported,
      fun p member => (quotes p member).1⟩

end ScriptFrontend
