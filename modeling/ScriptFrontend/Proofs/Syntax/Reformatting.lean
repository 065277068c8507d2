import ScriptFrontend.Proofs.Lexical.Insertion
import ScriptFrontend.Proofs.Syntax.Recorded

/-!
# Reformatting

Blanks and comments put between two lexemes of a text change where things stand in it and nothing
else: the tokens keep their kinds and values, and the program and the messages of its diagnostics
depend on nothing more, whether the program has faults or not.
-/
namespace ScriptFrontend
variable {a b : List Token}

theorem Token.lexemes_of_kinds (same : a.map (·.kind) = b.map (·.kind)) : lexemes a = lexemes b := by
  induction a generalizing b with
  | nil =>
    cases b with
    | nil => rfl
    | cons u b => cases same
  | cons t a ih =>
    cases b with
    | nil => cases same
    | cons u b =>
      obtain ⟨kind, others⟩ := List.cons_eq_cons.1 same
      simp only [lexemes, kind, ih others]

theorem messages_eq (tokens : List Token) (source : Option String) :
    (parseTokens tokens source).diagnostics.map (·.message) =
      (Parse.program (Token.lexemes tokens)).faults.map Parse.Fault.message := by
  rw [parseTokens_diagnostics, List.map_map]
  rfl

/-- The gap may stand in front of any lexeme, and at the end of the text outside of comments. -/
theorem parse_reformatted {front back gap : String} {tokens : List Token}
    (accepted : tokenize (front ++ back) = .ok tokens) (place : BetweenTokens tokens front back)
    (closed : Scanning.ClosedGap gap.toList) :
    ∃ tokens' o o', tokenize (front ++ gap ++ back) = .ok tokens' ∧
      tokens'.map (·.kind) = tokens.map (·.kind) ∧
      parse (front ++ back) = .ok o ∧ parse (front ++ gap ++ back) = .ok o' ∧
      o'.program = o.program ∧ o'.diagnostics.map (·.message) = o.diagnostics.map (·.message) := by
  obtain ⟨tokens', found, kinds⟩ := tokenize_insert accepted place closed
  have lexemes := Token.lexemes_of_kinds kinds
  refine ⟨tokens', _, _, found, kinds, parse_of_tokenize accepted, parse_of_tokenize found, ?_, ?_⟩
  · rw [parseTokens_program, parseTokens_program, lexemes]
  · rw [messages_eq, messages_eq, lexemes]

/-- `y = 1` and `z;` on one line, where a name follows a number without a blank, and a comment with a
quote and a line feed between the two. -/
theorem parse_reformatted_between_number_and_name :
    ∃ tokens tokens' o o', tokenize ("y = 1" ++ "z;") = .ok tokens ∧
      BetweenTokens tokens "y = 1" "z;" ∧ Scanning.ClosedGap "# \"z\n\t".toList ∧
      tokenize ("y = 1" ++ "# \"z\n\t" ++ "z;") = .ok tokens' ∧
      tokens'.map (·.kind) = tokens.map (·.kind) ∧
      parse ("y = 1" ++ "z;") = .ok o ∧ parse ("y = 1" ++ "# \"z\n\t" ++ "z;") = .ok o' ∧
      o'.program = o.program ∧ o'.diagnostics.map (·.message) = o.diagnostics.map (·.message) ∧
      o.diagnostics.map (·.message) = ["Expected ';' after assignment, found identifier 'z'"] := by
  have started : (tokenize ("y = 1" ++ "z;")).toOption.any
      (fun tokens => tokens.any fun t => t.kind.isSome && t.location = .behind "y = 1".toList) = true := by
    decide +kernel
  have faulty : (parse ("y = 1" ++ "z;")).toOption.map (fun o => o.diagnostics.map (·.message)) =
      some ["Expected ';' after assignment, found identifier 'z'"] := by
    decide +kernel
  have plain : '\n' ∉ [' ', '"', 'z'] := by decide
  have closed : Scanning.ClosedGap "# \"z\n\t".toList := fun _ =>
    .comment plain (.blank (by decide) .nil)
  cases accepted : tokenize ("y = 1" ++ "z;") with
  | error e =>
    rw [accepted] at started
    cases started
  | ok tokens =>
    rw [accepted] at started
    obtain ⟨t, member, here⟩ := List.any_eq_true.1 started
    rw [Bool.and_eq_true, decide_eq_true_eq] at here
    have place : BetweenTokens tokens "y = 1" "z;" :=
      .inl ⟨t, member, Option.isSome_iff_ne_none.1 here.1, here.2⟩
    obtain ⟨tokens', o, o', found, kinds, read, read', program, messages⟩ :=
      parse_reformatted accepted place closed
    rw [read] at faulty
    exact ⟨tokens, tokens', o, o', rfl, place, closed, found, kinds, read, read', program, messages,
      Option.some.inj faulty⟩

end ScriptFrontend
