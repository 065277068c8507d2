import ScriptFrontend.Proofs.Lexical.LineFeed
import ScriptFrontend.Proofs.Lexical.Lines
import ScriptFrontend.Proofs.Syntax.Acceptance
import ScriptFrontend.Proofs.Syntax.Places

/-!
# A program in front of a text

Text without faults, and a line feed, in front of a text leave alone how the text is read. The
statements of both come out one behind the other, and the faults of the text are reported as before,
only further down.
-/
namespace ScriptFrontend
namespace Parse
variable {ls rest : List Lexeme} {ss : List Stmt}

theorem program_append (h : Phrase .program ls ss) (next : rest.head? ≠ some (.symbol .kwElse)) :
    program (ls ++ rest) =
      ⟨ss ++ (program rest).statements, (program rest).faults, (program rest).rest⟩ := by
  induction ss generalizing ls with
  | nil =>
    cases h
    rfl
  | cons s ss ih =>
    cases h with
    | @statement front more _ _ first others =>
      have nonempty : front ≠ [] := by
        rintro rfl
        exact Phrase.statement_ne_nil first
      have shorter : (more ++ rest).length < (front ++ (more ++ rest)).length := by
        have := List.length_pos_iff.2 nonempty
        simp only [List.length_append]
        omega
      have accepted := accepts_of_phrase first (more ++ rest) (others.append_head?_ne rfl next)
      rw [List.append_assoc, program_of_gives shorter accepted, ih others]
      rfl

end Parse

/-! Places further down -/

def Diagnostic.down (k : Nat) (d : Diagnostic) : Diagnostic := { d with location := d.location.down k }

theorem Diagnostic.down_caret (k : Nat) (d : Diagnostic) : (d.down k).caret = d.caret := rfl

namespace Token
variable {tokens : List Token}

theorem lexemes_down (k : Nat) (tokens : List Token) : lexemes (tokens.map (down k)) = lexemes tokens := by
  induction tokens with
  | nil => rfl
  | cons t tokens ih => simp only [List.map_cons, lexemes, down, ih]

theorem head?_lexemes (tokens : List Token) : (lexemes tokens).head? = tokens.head?.bind (·.kind) := by
  cases tokens with
  | nil => rfl
  | cons t tokens => cases kind : t.kind <;> simp [lexemes, kind]

theorem lexemes_ended {front : List Token} {last : Token} (running : ∀ t ∈ front, t.kind ≠ none)
    (ended : last.kind = none) : lexemes (front ++ [last]) = lexemes front := by
  rw [lexemes_append running]
  simp [lexemes, ended]

theorem locationAt_down (nonempty : tokens ≠ []) (k i : Nat) :
    locationAt (tokens.map (down k)) i = (locationAt tokens i).down k := by
  unfold locationAt
  rw [List.getElem?_map, List.getLast?_map, List.getLast?_eq_some_getLast nonempty]
  cases tokens[i]? <;> rfl

end Token

theorem Parse.Fault.diagnostic_below {b : String} {tokens : List Token} (accepted : tokenize b = .ok tokens)
    (nonempty : tokens ≠ []) (a : String) (count : Nat) (f : Parse.Fault) :
    f.diagnostic (tokens.map (Token.down (1 + a.toList.count '\n'))) count
        (some (Text.lines (a ++ "\n" ++ b))) =
      (f.diagnostic tokens count (some (Text.lines b))).down (1 + a.toList.count '\n') := by
  obtain ⟨t, member, place⟩ := Token.locationAt_mem nonempty (count - f.rest.length)
  have counted := line_pos_of_tokenize accepted t member
  have quoted := Text.nthLine?_below a b counted
  rw [diagnostic, diagnostic, Token.locationAt_down nonempty, place]
  exact congrArg (Diagnostic.mk _ _) quoted

/-- The tokens of a text, moved down behind other text. -/
theorem parseTokens_below {b : String} {tokens : List Token} (accepted : tokenize b = .ok tokens)
    (a : String) :
    parseTokens (tokens.map (Token.down (1 + a.toList.count '\n'))) (some (a ++ "\n" ++ b)) =
      ⟨(parseTokens tokens (some b)).program,
        (parseTokens tokens (some b)).diagnostics.map (Diagnostic.down (1 + a.toList.count '\n'))⟩ := by
  rw [parseTokens_eq, parseTokens_eq tokens, Token.lexemes_down, List.map_map]
  refine congrArg (ParseOutcome.mk _) (List.map_congr_left fun f noted => ?_)
  have nonempty : tokens ≠ [] := by
    rintro rfl
    simp [Token.lexemes] at noted
  exact f.diagnostic_below accepted nonempty a _

theorem parse_of_refused {source : String} {e : LexError} (h : tokenize source = .error e) :
    parse source = .error e := by
  rw [parse, ParserSession.ofSource, h]
  rfl

theorem tokenize_of_parse {source : String} {o : ParseOutcome} (h : parse source = .ok o) :
    ∃ tokens, tokenize source = .ok tokens ∧ o = parseTokens tokens (some source) := by
  cases found : tokenize source with
  | error e =>
    rw [parse_of_refused found] at h
    cases h
  | ok tokens =>
    rw [parse_of_tokenize found] at h
    exact ⟨tokens, rfl, (Except.ok.inj h).symm⟩

/-- Where the tokens of a text without faults come first, the statements and the faults of the other
tokens stay what they are. -/
theorem parseTokens_append {front back : List Token} {ss : List Stmt}
    (running : ∀ t ∈ front, t.kind ≠ none) (h : Phrase .program (Token.lexemes front) ss)
    (next : (Token.lexemes back).head? ≠ some (.symbol .kwElse)) (source : Option String) :
    parseTokens (front ++ back) source =
      ⟨⟨ss ++ (parseTokens back source).program.statements⟩, (parseTokens back source).diagnostics⟩ := by
  have moved := diagnostics_behind running back (source.map Text.lines)
  rw [parseTokens_eq, parseTokens_eq back, ← moved, Token.lexemes_append running,
    Parse.program_append h next]

theorem parse_below {a : String} {o : ParseOutcome} (accepted : parse a = .ok o)
    (quiet : o.diagnostics = []) (b : String) :
    let k := 1 + a.toList.count '\n'
    (∀ e, tokenize b = .error e → parse (a ++ "\n" ++ b) = .error (e.down k)) ∧
      ∀ tokens, tokenize b = .ok tokens → (∀ t ∈ tokens.head?, t.kind ≠ some (.symbol .kwElse)) →
        ∃ p, parse b = .ok p ∧
          parse (a ++ "\n" ++ b) = .ok ⟨⟨o.program.statements ++ p.program.statements⟩,
            p.diagnostics.map (Diagnostic.down k)⟩ ∧
          ∀ d ∈ p.diagnostics, (d.down k).caret = d.caret := by
  intro k
  obtain ⟨all, read, rfl⟩ := tokenize_of_parse accepted
  obtain ⟨front, last, rfl, ended, running, below⟩ := tokenize_below read
  constructor
  · intro e refused
    apply parse_of_refused
    rw [below, refused]
    rfl
  · intro tokens found first
    have joined : tokenize (a ++ "\n" ++ b) = .ok (front ++ tokens.map (Token.down k)) := by
      rw [below, found]
      rfl
    refine ⟨_, parse_of_tokenize found, ?_, fun d _ => d.down_caret k⟩
    rw [parseTokens_diagnostics, List.map_eq_nil_iff, Token.lexemes_ended running ended] at quiet
    have phrase := (Parse.phrase_program_iff (Token.lexemes front) _).2 ⟨quiet, rfl⟩
    have next : (Token.lexemes (tokens.map (Token.down k))).head? ≠ some (.symbol .kwElse) := by
      rw [Token.lexemes_down, Token.head?_lexemes]
      intro found
      obtain ⟨t, head, kind⟩ := Option.bind_eq_some_iff.1 found
      exact first t head kind
    have own : (parseTokens (front ++ [last]) (some a)).program.statements =
        (Parse.program (Token.lexemes front)).statements := by
      rw [parseTokens_program, Token.lexemes_ended running ended]
    rw [parse_of_tokenize joined, parseTokens_append running phrase next, parseTokens_below found, own]

/-- The first text ends in a conditional and a comment, the second has two faults. -/
theorem parse_below_openComment :
    ∃ o p, parse "if (x) \x7b \x7d # y" = .ok o ∧ o.diagnostics = [] ∧ parse "y = ;\nvar" = .ok p ∧
      parse ("if (x) \x7b \x7d # y" ++ "\n" ++ "y = ;\nvar") =
        .ok ⟨⟨o.program.statements ++ p.program.statements⟩, p.diagnostics.map (Diagnostic.down 1)⟩ := by
  have clean : (parse "if (x) \x7b \x7d # y").toOption.any (·.diagnostics.isEmpty) = true := by
    decide +kernel
  have started : (tokenize "y = ;\nvar").toOption.any
      (fun tokens => tokens.head?.all fun t => t.kind.all (!·.isKeyword)) = true := by decide +kernel
  have feeds : 1 + "if (x) \x7b \x7d # y".toList.count '\n' = 1 := by decide +kernel
  cases accepted : parse "if (x) \x7b \x7d # y" with
  | error e =>
    rw [accepted] at clean
    cases clean
  | ok o =>
    rw [accepted] at clean
    have quiet : o.diagnostics = [] := List.isEmpty_iff.1 clean
    cases found : tokenize "y = ;\nvar" with
    | error e =>
      rw [found] at started
      cases started
    | ok tokens =>
      rw [found] at started
      change tokens.head?.all (fun t => t.kind.all (!·.isKeyword)) = true at started
      have first : ∀ t ∈ tokens.head?, t.kind ≠ some (.symbol .kwElse) := by
        intro t head kind
        rw [Option.mem_def.1 head, Option.all_some, kind] at started
        cases started
      obtain ⟨p, read, joined, -⟩ := (parse_below accepted quiet "y = ;\nvar").2 tokens found first
      rw [feeds] at joined
      exact ⟨o, p, rfl, quiet, read, joined⟩

end ScriptFrontend
