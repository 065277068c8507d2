import ScriptFrontend.Proofs.Syntax.Joining
import ScriptFrontend.Proofs.Syntax.Progress
import ScriptFrontend.Proofs.Syntax.Recorded
import ScriptFrontend.Proofs.Syntax.Spacing

/-!
# Diagnostics come in the order of the text

The faults of a statement lie apart and so do those of different statements, with one exception: a
statement may end in panic at a closing brace that the next statement of the program starts with, and
that statement finds no operand there. So a token carries one diagnostic, or two if it is such a
brace. In a text, whose tokens stand at ascending places, the places of the diagnostics ascend.
-/
namespace ScriptFrontend
namespace Parse
variable {ls p : List Lexeme} {f g k : Fault}

/-- What is pending where each statement of a program starts. -/
def statementStarts (ls : List Lexeme) : List (List Lexeme) :=
  if h : ls = [] then []
  else
    have := afterStatement_length_lt h
    ls :: statementStarts (afterStatement ls)
termination_by ls.length

theorem statementStarts_nil : statementStarts [] = [] := by
  rw [statementStarts, dif_pos rfl]

theorem statementStarts_of_ne_nil (h : ls ≠ []) :
    statementStarts ls = ls :: statementStarts (afterStatement ls) := by
  rw [statementStarts, dif_neg h]

theorem program_statements (ls : List Lexeme) :
    (program ls).statements = (statementStarts ls).map fun p => (statement (.start p)).value := by
  induction ls using statements_induction with
  | nil => rw [program_nil, statementStarts_nil, List.map_nil]
  | statement ls nonempty ih =>
    rw [program_of_ne_nil nonempty, statementStarts_of_ne_nil nonempty, List.map_cons, ih]

/-- Of two faults of a program the second is noted further on, or the first left the reader at a
closing brace where a statement starts, and the second is that this statement has no operand. -/
def Fault.Precedes (ls : List Lexeme) (f g : Fault) : Prop :=
  g.rest.length < f.rest.length ∨
    f.rest = g.rest ∧ f.cause ≠ .noOperand ∧ g.rest ∈ statementStarts ls ∧
      ∃ rest, g = ⟨.noOperand, .symbol .closeBrace :: rest⟩

/-- Where skipping to a boundary stops, only a closing brace carries a fault of the statement that
starts there. -/
theorem fault_at_start (stuck : resynchronize p = p) (noted : g ∈ (program p).faults)
    (here : g.rest = p) : ∃ rest, g = ⟨.noOperand, .symbol .closeBrace :: rest⟩ := by
  have nonempty : p ≠ [] := by
    rintro rfl
    rw [program_nil] at noted
    cases noted
  rw [program_of_ne_nil nonempty] at noted
  rcases List.mem_append.1 noted with first | later
  · by_cases brace : p.head? = some (.symbol .closeBrace)
    · obtain ⟨rest, rfl⟩ := List.head?_eq_some_iff.1 brace
      obtain ⟨others, faults⟩ := List.head?_eq_some_iff.1 (statement_closeBrace_faults rest)
      have apart := (statement_spaced (.symbol .closeBrace :: rest)).apart
      rw [faults] at first apart
      rcases List.mem_cons.1 first with rfl | other
      · exact ⟨rest, rfl⟩
      · have shorter := (List.pairwise_cons.1 apart).1 g other
        exact absurd (congrArg List.length here) (Nat.ne_of_lt shorter)
    · have shorter := statement_faults_lt stuck nonempty brace g first
      exact absurd (congrArg List.length here) (Nat.ne_of_lt shorter)
  · have within := (rest_suffix_of_mem_faults later).length_le
    have shorter := afterStatement_length_lt nonempty
    rw [here] at within
    omega

theorem program_faults_precede (ls : List Lexeme) :
    (program ls).faults.Pairwise (Fault.Precedes ls) := by
  induction ls using statements_induction with
  | nil =>
    rw [program_nil]
    exact List.Pairwise.nil
  | statement ls nonempty ih =>
    have spaced := statement_spaced ls
    have place : (statement (.start ls)).next.pending = afterStatement ls :=
      (Cursor.resume_statement (s := .start ls) nonempty).symm
    rw [program_of_ne_nil nonempty]
    apply List.pairwise_append.2
    refine ⟨spaced.apart.imp .inl, ih.imp ?_, ?_⟩
    · intro f g precedes
      refine precedes.imp_right fun ⟨same, inner, start, brace⟩ => ⟨same, inner, ?_, brace⟩
      rw [statementStarts_of_ne_nil nonempty]
      exact List.mem_cons_of_mem ls start
    · intro f here g later
      have within := rest_suffix_of_mem_faults later
      by_cases moved : g.rest.length < f.rest.length
      · exact .inl moved
      · rcases spaced.passed f here with passed | ⟨-, stands, stuck, inner⟩
        · rw [place] at passed
          have := within.length_le
          omega
        · rw [place] at stands stuck inner
          have same : g.rest = afterStatement ls := by
            apply within.eq_of_length
            have := within.length_le
            rw [stands] at moved
            omega
          have pending : afterStatement ls ≠ [] := by
            intro empty
            rw [empty, program_nil] at later
            cases later
          refine .inr ⟨stands.trans same.symm, inner pending, ?_, fault_at_start stuck later same⟩
          rw [same, statementStarts_of_ne_nil nonempty, statementStarts_of_ne_nil pending]
          exact List.mem_cons_of_mem _ List.mem_cons_self

/-- Faults at one token are the two at a stray closing brace. -/
theorem Fault.Precedes.of_index_eq {tokens : List Token}
    (precedes : f.Precedes (Token.lexemes tokens) g) (hf : f.rest <:+ Token.lexemes tokens)
    (same : f.index tokens = g.index tokens) :
    f.cause ≠ .noOperand ∧ g.rest ∈ statementStarts (Token.lexemes tokens) ∧
      ∃ rest, g = ⟨.noOperand, .symbol .closeBrace :: rest⟩ := by
  rcases precedes with further | ⟨-, stray⟩
  · have within := hf.length_le
    unfold Fault.index at same
    omega
  · exact stray

/-- A third fault at a token would be behind one that has no operand there. -/
theorem faults_at_index (tokens : List Token) (i : Nat) :
    let here := (program (Token.lexemes tokens)).faults.filter (·.index tokens = i)
    here.length ≤ 1 ∨ ∃ f rest, here = [f, ⟨.noOperand, .symbol .closeBrace :: rest⟩] ∧
      .symbol .closeBrace :: rest ∈ statementStarts (Token.lexemes tokens) := by
  intro here
  have apart : here.Pairwise (Fault.Precedes (Token.lexemes tokens)) :=
    (program_faults_precede (Token.lexemes tokens)).filter _
  have within : ∀ f ∈ here, f.rest <:+ Token.lexemes tokens ∧ f.index tokens = i := by
    intro f member
    obtain ⟨noted, index⟩ := List.mem_filter.1 member
    exact ⟨rest_suffix_of_mem_faults noted, of_decide_eq_true index⟩
  match here, apart, within with
  | [], _, _ => exact .inl (Nat.zero_le 1)
  | [f], _, _ => exact .inl (Nat.le_refl 1)
  | [f, g], apart, within =>
    obtain ⟨hf, index⟩ := within f (by simp)
    obtain ⟨-, index'⟩ := within g (by simp)
    have precedes := (List.pairwise_cons.1 apart).1 g (by simp)
    obtain ⟨-, start, rest, rfl⟩ := precedes.of_index_eq hf (index.trans index'.symm)
    exact .inr ⟨f, rest, rfl, start⟩
  | f :: g :: k :: others, apart, within =>
    obtain ⟨hf, index⟩ := within f (by simp)
    obtain ⟨hg, index'⟩ := within g (by simp)
    obtain ⟨-, index''⟩ := within k (by simp)
    obtain ⟨first, later⟩ := List.pairwise_cons.1 apart
    have second := (List.pairwise_cons.1 later).1 k (by simp)
    obtain ⟨-, -, rest, rfl⟩ := (first g (by simp)).of_index_eq hf (index.trans index'.symm)
    obtain ⟨inner, -⟩ := second.of_index_eq hg (index'.trans index''.symm)
    exact absurd rfl inner

end Parse

section Recorded
variable (tokens : List Token) (source : Option String)

/-- Two diagnostics are recorded at the token. It is a closing brace with which a statement of the
program starts, and the second is that this statement has no operand there. -/
def TwiceRecorded (i : Nat) : Prop :=
  ∃ (t : Token) (d : Diagnostic) (rest : List Lexeme),
    let statement := Lexeme.symbol .closeBrace :: rest
    (Token.withEnd tokens)[i]? = some t ∧ t.kind = some (.symbol .closeBrace) ∧
      i + statement.length = (Token.lexemes tokens).length ∧
      statement ∈ Parse.statementStarts (Token.lexemes tokens) ∧
      (Parse.statement (.start statement)).next.faults.head? = some ⟨.noOperand, statement⟩ ∧
      (recorded tokens source).filter (·.1 = i) =
        [(i, d), (i, Parse.Fault.diagnostic tokens (Token.lexemes tokens).length
          (source.map Text.lines) ⟨.noOperand, statement⟩)] ∧
      (Parse.Fault.mk .noOperand statement).message = "Unexpected token in expression: '\x7d'"

theorem recorded_pairwise : (recorded tokens source).Pairwise fun p q => p.1 ≤ q.1 := by
  apply List.pairwise_map.2
  apply (Parse.program_faults_precede (Token.lexemes tokens)).imp
  intro f g precedes
  have le : g.rest.length ≤ f.rest.length := by
    rcases precedes with further | ⟨same, -⟩
    · exact Nat.le_of_lt further
    · exact Nat.le_of_eq (congrArg List.length same.symm)
  exact Nat.sub_le_sub_left le _

theorem recorded_once_or_twice (i : Nat) :
    ((recorded tokens source).filter (·.1 = i)).length ≤ 1 ∨ TwiceRecorded tokens source i := by
  have here : (recorded tokens source).filter (·.1 = i) =
      ((Parse.program (Token.lexemes tokens)).faults.filter (·.index tokens = i)).map fun f =>
        (f.index tokens,
          f.diagnostic tokens (Token.lexemes tokens).length (source.map Text.lines)) :=
    List.filter_map
  rcases Parse.faults_at_index tokens i with once | ⟨f, rest, both, start⟩
  · rw [here, List.length_map]
    exact .inl once
  · have noted (g : Parse.Fault) (member : g ∈ [f, ⟨.noOperand, .symbol .closeBrace :: rest⟩]) :
        g.rest <:+ Token.lexemes tokens ∧ g.index tokens = i := by
      rw [← both] at member
      obtain ⟨noted, index⟩ := List.mem_filter.1 member
      exact ⟨Parse.rest_suffix_of_mem_faults noted, of_decide_eq_true index⟩
    obtain ⟨-, first⟩ := noted f (by simp)
    obtain ⟨within, second⟩ := noted _ (List.mem_cons_of_mem f List.mem_cons_self)
    obtain ⟨t, found, kind, -⟩ := Parse.Fault.exists_token within
    rw [second] at found
    have count : i + (Lexeme.symbol .closeBrace :: rest).length = (Token.lexemes tokens).length := by
      rw [← second]
      exact Nat.sub_add_cancel within.length_le
    refine .inr ⟨t, f.diagnostic tokens (Token.lexemes tokens).length (source.map Text.lines), rest,
      found, kind, count, start, Parse.statement_closeBrace_faults rest, ?_, rfl⟩
    rw [here, both, List.map_cons, List.map_cons, List.map_nil, first, second]

/-- The second diagnostic at a token is at a lexeme, so there is only one at the end. -/
theorem recorded_once_at_end :
    ((recorded tokens source).filter (·.1 = (Token.lexemes tokens).length)).length ≤ 1 := by
  rcases recorded_once_or_twice tokens source (Token.lexemes tokens).length with once | twice
  · exact once
  · obtain ⟨-, -, rest, -, -, count, -⟩ := twice
    rw [List.length_cons] at count
    omega

theorem recorded_at_most_twice (i : Nat) : ((recorded tokens source).filter (·.1 = i)).length ≤ 2 := by
  rcases recorded_once_or_twice tokens source i with once | twice
  · exact Nat.le_succ_of_le once
  · obtain ⟨_, _, _, -, -, -, -, -, both, -⟩ := twice
    exact Nat.le_of_eq (congrArg List.length both)

end Recorded

section Accepted
variable {tokens : List Token} {text : String} {p q : Nat × Diagnostic}

theorem recorded_before (accepted : tokenize text = .ok tokens) (hp : p ∈ recorded tokens (some text))
    (hq : q ∈ recorded tokens (some text)) (lt : p.1 < q.1) : p.2.location.Before q.2.location := by
  obtain ⟨t, first, place, -⟩ := exists_token_of_recorded accepted hp
  obtain ⟨u, second, place', -⟩ := exists_token_of_recorded accepted hq
  obtain ⟨i, rfl⟩ := List.getElem?_eq_some_iff.1 first
  obtain ⟨j, rfl⟩ := List.getElem?_eq_some_iff.1 second
  rw [place, place']
  exact List.pairwise_iff_getElem.1 (Scanning.tokenize_ascending accepted) p.1 q.1 i j lt

theorem recorded_location_eq_iff (accepted : tokenize text = .ok tokens)
    (hp : p ∈ recorded tokens (some text)) (hq : q ∈ recorded tokens (some text)) :
    p.2.location = q.2.location ↔ p.1 = q.1 := by
  constructor
  · intro same
    rcases Nat.lt_trichotomy p.1 q.1 with lt | eq | gt
    · exact absurd same (recorded_before accepted hp hq lt).ne
    · exact eq
    · exact absurd same.symm (recorded_before accepted hq hp gt).ne
  · intro same
    obtain ⟨t, first, place, -⟩ := isAt_of_mem_recorded hp
    obtain ⟨u, second, place', -⟩ := isAt_of_mem_recorded hq
    rw [same] at first
    obtain rfl := Option.some.inj (first.symm.trans second)
    exact place.trans place'.symm

/-- Diagnostics at one place of a text are those at one of its tokens. -/
theorem recorded_at_place (accepted : tokenize text = .ok tokens) (place : Location) :
    ((recorded tokens (some text)).filter (·.2.location = place)).length ≤ 2 := by
  cases here : (recorded tokens (some text)).filter (·.2.location = place) with
  | nil => exact Nat.zero_le 2
  | cons p others =>
    have member : p ∈ (recorded tokens (some text)).filter (·.2.location = place) :=
      here ▸ List.mem_cons_self
    obtain ⟨hp, located⟩ := List.mem_filter.1 member
    have located : p.2.location = place := of_decide_eq_true located
    have token : (recorded tokens (some text)).filter (·.2.location = place) =
        (recorded tokens (some text)).filter (·.1 = p.1) := by
      apply List.filter_congr
      intro q hq
      rw [← located]
      exact decide_eq_decide.2 (recorded_location_eq_iff accepted hq hp)
    rw [← here, token]
    exact recorded_at_most_twice tokens (some text) p.1

theorem recorded_ordered (accepted : tokenize text = .ok tokens) :
    (recorded tokens (some text)).Pairwise fun p q =>
      p.2.location = q.2.location ∨ p.2.location.Before q.2.location := by
  apply (recorded_pairwise tokens (some text)).imp_of_mem
  intro p q hp hq le
  rcases Nat.lt_or_eq_of_le le with lt | eq
  · exact .inr (recorded_before accepted hp hq lt)
  · exact .inl ((recorded_location_eq_iff accepted hp hq).2 eq)

end Accepted

/-- The tokens at which diagnostics are recorded never go back. One diagnostic is recorded at a token,
or two at a stray closing brace, so in a text the places ascend and none occurs a third time. -/
theorem diagnostics_in_order :
    (∀ (tokens : List Token) (source : Option String),
      (recorded tokens source).map Prod.snd = (parseTokens tokens source).diagnostics ∧
      (∀ p ∈ recorded tokens source, p.2.IsAt tokens source p.1) ∧
      (recorded tokens source).Pairwise (fun p q => p.1 ≤ q.1) ∧
      (∃ front last behind, Token.withEnd tokens = front ++ last :: behind ∧ last.kind = none ∧
        (∀ t ∈ front, t.kind ≠ none) ∧
        ((recorded tokens source).filter (·.1 = front.length)).length ≤ 1) ∧
      (∀ i, ((recorded tokens source).filter (·.1 = i)).length ≤ 1 ∨ TwiceRecorded tokens source i) ∧
      (parseTokens tokens source).program.statements =
        (Parse.statementStarts (Token.lexemes tokens)).map fun p =>
          (Parse.statement (.start p)).value) ∧
    ∀ (text : String) (o : ParseOutcome), parse text = .ok o →
      o.diagnostics.Pairwise (fun d e => d.location = e.location ∨ d.location.Before e.location) ∧
        ∀ place, (o.diagnostics.filter (·.location = place)).length ≤ 2 := by
  constructor
  · intro tokens source
    obtain ⟨front, last, behind, whole, ended, running, count⟩ := Token.exists_end tokens
    have once := recorded_once_at_end tokens source
    rw [← count] at once
    refine ⟨recorded_diagnostics tokens source, fun p => isAt_of_mem_recorded,
      recorded_pairwise tokens source, ⟨front, last, behind, whole, ended, running, once⟩,
      recorded_once_or_twice tokens source, ?_⟩
    rw [parseTokens_program]
    exact Parse.program_statements (Token.lexemes tokens)
  · intro text o accepted
    obtain ⟨tokens, scanned, rfl⟩ := tokenize_of_parse accepted
    rw [← recorded_diagnostics]
    refine ⟨List.pairwise_map.2 (recorded_ordered scanned), fun place => ?_⟩
    rw [List.filter_map, List.length_map]
    exact recorded_at_place scanned place

/-- A statement ends in panic at the brace, and the next one starts with it. -/
theorem diagnostics_of_strayBrace :
    ∃ o, parse "x \x7d" = .ok o ∧
      o.diagnostics.map (fun d => (d.message, d.location)) =
        [("Expected ';' after expression, found '\x7d'", ⟨1, 3⟩),
          ("Unexpected token in expression: '\x7d'", ⟨1, 3⟩)] ∧
      o.diagnostics.Pairwise (fun d e => d.location = e.location ∨ d.location.Before e.location) ∧
      (o.diagnostics.filter (·.location = ⟨1, 3⟩)).length ≤ 2 := by
  have reported : (parse "x \x7d").toOption.map (·.diagnostics.map fun d => (d.message, d.location)) =
      some [("Expected ';' after expression, found '\x7d'", ⟨1, 3⟩),
        ("Unexpected token in expression: '\x7d'", ⟨1, 3⟩)] := by decide +kernel
  obtain ⟨-, ordered⟩ := diagnostics_in_order
  cases accepted : parse "x \x7d" with
  | error e =>
    rw [accepted] at reported
    cases reported
  | ok o =>
    rw [accepted] at reported
    obtain ⟨ascending, twice⟩ := ordered "x \x7d" o accepted
    exact ⟨o, rfl, Option.some.inj reported, ascending, twice ⟨1, 3⟩⟩

end ScriptFrontend
