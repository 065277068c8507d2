import ScriptFrontend.Proofs.Syntax.Acceptance
import ScriptFrontend.Proofs.Syntax.Lookahead

/-!
# The first fault is noted as early as it can be

The lexemes before the first fault start some program, and with the lexeme at the fault they start
none. If there were a program that goes on behind that lexeme, it would be read without a fault, and
the reading of the faulty input, which goes the same way up to the lexeme, would find no fault there.
-/
namespace ScriptFrontend
namespace Parse

/-- Of two inputs that agree up to a lexeme the first has no first fault there if the second has none. -/
theorem program_tracks {l : Lexeme} {p q : List Lexeme} (a : List Lexeme) :
    (program (a ++ l :: q)).faults ≠ [] ∨
      ∀ f, (program (a ++ l :: p)).faults.head? = some f → f.rest.length ≤ p.length := by
  have nonempty (r : List Lexeme) : a ++ l :: r ≠ [] := by simp
  rw [program_of_ne_nil (nonempty q), program_of_ne_nil (nonempty p)]
  rcases statement_tracks (p := p) (q := q) (l := l) a with ⟨-, b, here, there⟩ | fault | past
  · have shorter : (b ++ l :: p).length < (a ++ l :: p).length := by
      have := statement_progress (congrArg Cursor.faults here)
      rwa [here] at this
    have shorter' : (b ++ l :: q).length < (a ++ l :: q).length := by
      have := statement_progress (congrArg Cursor.faults there)
      rwa [there] at this
    have : b.length < a.length := by
      simp only [List.length_append] at shorter
      omega
    rw [afterStatement_eq (congrArg Cursor.pending here) shorter,
      afterStatement_eq (congrArg Cursor.pending there) shorter', here, there]
    exact program_tracks b
  · exact .inl fun quiet => fault (List.append_eq_nil_iff.1 quiet).1
  · -- The statement is past `l`, so faults of the statements behind it are, too.
    refine .inr fun f first => ?_
    rw [List.head?_append] at first
    cases settled : (statement (.start (a ++ l :: p))).next.faults.head? with
    | some g =>
      rw [settled] at first
      obtain rfl : g = f := by simpa using first
      exact past.2 g settled
    | none =>
      rw [settled] at first
      rcases program_follows (afterStatement (a ++ l :: p)) with ⟨quiet, -⟩ | ⟨g, later, before, cut, -⟩
      · simp [quiet] at first
      · obtain rfl : g = f := by simpa [later] using first
        have within : g.rest.length ≤ (afterStatement (a ++ l :: p)).length := by simp [cut]
        exact Nat.le_trans within (Nat.le_trans (Cursor.resume_length_le _ _) past.1)
termination_by a.length

/-- With the offending lexeme the lexemes before a first fault are no longer the start of a program. -/
theorem not_viable_of_first_fault {before more : List Lexeme} {l : Lexeme} {f : Fault}
    (first : (program (before ++ l :: more)).faults.head? = some f) (rest : f.rest = l :: more) :
    ¬Viable (before ++ [l]) := by
  rintro ⟨q, ss, phrase⟩
  rw [List.append_assoc, List.singleton_append] at phrase
  have quiet := congrArg ProgramReading.faults (program_of_phrase phrase)
  rcases program_tracks (l := l) (p := more) (q := q) before with fault | early
  · exact fault quiet
  · have := early f first
    rw [rest, List.length_cons] at this
    omega

theorem first_fault_viable {ls : List Lexeme} {f : Fault} (first : (program ls).faults.head? = some f) :
    ∃ before, ls = before ++ f.rest ∧ Viable before ∧
      match f.rest with
      | [] => ¬Grammatical before
      | l :: _ => ¬Viable (before ++ [l]) := by
  have faulty : (program ls).faults ≠ [] := by
    intro quiet
    simp [quiet] at first
  rcases program_follows ls with ⟨quiet, -⟩ | ⟨g, known, before, cut, viable⟩
  · exact absurd quiet faulty
  obtain rfl : g = f := by simpa [known] using first
  refine ⟨before, cut, viable, ?_⟩
  cases rest : g.rest with
  | nil =>
    rw [rest, List.append_nil] at cut
    exact fun grammatical => faulty ((faults_eq_nil_iff ls).2 (cut ▸ grammatical))
  | cons l more => exact not_viable_of_first_fault (rest ▸ cut ▸ first) rest

end Parse

namespace Token

/-- A cut through the lexemes is a cut through the tokens, before the first end of the input. -/
theorem exists_cut {tokens : List Token} {a b : List Lexeme} (h : lexemes tokens = a ++ b) :
    ∃ front back, tokens = front ++ back ∧ lexemes front = a ∧ lexemes back = b ∧
      front.length = a.length ∧ ∀ t ∈ front, t.kind ≠ none := by
  induction a generalizing tokens with
  | nil => exact ⟨[], tokens, rfl, rfl, h, rfl, by simp⟩
  | cons l a ih =>
    cases tokens with
    | nil => simp [lexemes] at h
    | cons t tokens =>
      cases kind : t.kind with
      | none => simp [lexemes, kind] at h
      | some k =>
        simp only [lexemes, kind, List.cons_append, List.cons.injEq] at h
        obtain ⟨rfl, h⟩ := h
        obtain ⟨front, back, rfl, rfl, rfl, count, running⟩ := ih h
        exact ⟨t :: front, back, rfl, by simp [lexemes, kind], rfl, by simp [count],
          List.forall_mem_cons.2 ⟨by simp [kind], running⟩⟩

/-- Where the tokens do not end with an end of input, one stands at the place of the last token. -/
def withEnd (tokens : List Token) : List Token :=
  if tokens.getLast?.any (·.kind.isNone) then tokens
  else tokens ++ [⟨none, (tokens.getLast?.map (·.location)).getD .start⟩]

theorem exists_withEnd (tokens : List Token) : ∃ extra, withEnd tokens = tokens ++ extra := by
  unfold withEnd
  split
  · exact ⟨[], by simp⟩
  · exact ⟨_, rfl⟩

/-- The token behind the given number of lexemes, and the place that is looked up for it. -/
theorem exists_at {front : List Token} (running : ∀ t ∈ front, t.kind ≠ none) (back : List Token) :
    ∃ t behind, withEnd (front ++ back) = front ++ t :: behind ∧ t.kind = (lexemes back).head? ∧
      locationAt (front ++ back) front.length = t.location := by
  cases back with
  | nil =>
    have unended : (front.getLast?.any (·.kind.isNone)) = false := by
      cases last : front.getLast? with
      | none => rfl
      | some t =>
        have := running t (List.mem_of_getLast? last)
        simpa [Option.isSome_iff_ne_none] using this
    refine ⟨_, [], by simp only [withEnd, List.append_nil, unended]; rfl, rfl, ?_⟩
    simp [locationAt]
  | cons t back =>
    have kind : t.kind = (lexemes (t :: back)).head? := by
      cases h : t.kind <;> simp [lexemes, h]
    obtain ⟨extra, ended⟩ := exists_withEnd (front ++ t :: back)
    exact ⟨t, back ++ extra, by simp [ended], kind, by simp [locationAt]⟩

end Token

theorem first_diagnostic_earliest {tokens : List Token} {source : Option String} {d : Diagnostic}
    {others : List Diagnostic} (h : (parseTokens tokens source).diagnostics = d :: others) :
    ∃ before t behind, Token.withEnd tokens = before ++ t :: behind ∧ d.location = t.location ∧
      (∀ u ∈ before, u.kind ≠ none) ∧ Viable (Token.lexemes before) ∧
      match t.kind with
      | none => ¬Grammatical (Token.lexemes before)
      | some l => ¬Viable (Token.lexemes before ++ [l]) := by
  rw [parseTokens_diagnostics] at h
  obtain ⟨f, later, faults, rfl, -⟩ := List.map_eq_cons_iff.1 h
  have first : (Parse.program (Token.lexemes tokens)).faults.head? = some f := by rw [faults]; rfl
  obtain ⟨a, cut, viable, refused⟩ := Parse.first_fault_viable first
  obtain ⟨before, back, rfl, rfl, rest, count, running⟩ := Token.exists_cut cut
  obtain ⟨t, behind, whole, kind, place⟩ := Token.exists_at running back
  refine ⟨before, t, behind, whole, ?_, running, viable, ?_⟩
  · have index : (Token.lexemes (before ++ back)).length - f.rest.length = before.length := by
      rw [cut, List.length_append, count]
      omega
    rw [Parse.Fault.diagnostic, index, place]
  · rw [kind, rest]
    cases met : f.rest with
    | nil => simpa [met] using refused
    | cons l more => simpa [met] using refused

/-- A condition without its closing parenthesis, and a block behind it on the next line. -/
def unclosedCondition : List Token :=
  [⟨some (.symbol .kwIf), ⟨1, 1⟩⟩, ⟨some (.symbol .openParen), ⟨1, 4⟩⟩, ⟨some (.name "a"), ⟨1, 5⟩⟩,
    ⟨some (.symbol .openBrace), ⟨2, 1⟩⟩, ⟨some (.symbol .closeBrace), ⟨2, 2⟩⟩]

theorem first_diagnostic_of_unclosedCondition :
    (parseTokens unclosedCondition none).diagnostics =
        [⟨"Expected ')' after if condition, found '\x7b'", ⟨2, 1⟩, none⟩,
          ⟨"Unexpected token in expression: '\x7d'", ⟨2, 2⟩, none⟩] ∧
      ∃ before t behind, Token.withEnd unclosedCondition = before ++ t :: behind ∧
        (⟨2, 1⟩ : Location) = t.location ∧ (∀ u ∈ before, u.kind ≠ none) ∧
        Viable (Token.lexemes before) ∧
        match t.kind with
        | none => ¬Grammatical (Token.lexemes before)
        | some l => ¬Viable (Token.lexemes before ++ [l]) := by
  have found : (parseTokens unclosedCondition none).diagnostics =
      [⟨"Expected ')' after if condition, found '\x7b'", ⟨2, 1⟩, none⟩,
        ⟨"Unexpected token in expression: '\x7d'", ⟨2, 2⟩, none⟩] := by decide +kernel
  exact ⟨found, first_diagnostic_earliest found⟩

end ScriptFrontend
