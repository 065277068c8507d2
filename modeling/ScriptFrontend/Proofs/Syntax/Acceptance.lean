import ScriptFrontend.Parse.Outcome
import ScriptFrontend.Proofs.Syntax.Completeness
import ScriptFrontend.Proofs.Syntax.Soundness

/-!
# The reader accepts the grammar

Tokens are read without a diagnostic exactly when their lexemes are a program, and the statements
that come out are those of the only derivation.
-/
namespace ScriptFrontend
namespace Parse

theorem phrase_program_iff (ls : List Lexeme) (ss : List Stmt) :
    Phrase .program ls ss ↔ (program ls).faults = [] ∧ (program ls).statements = ss := by
  constructor
  · intro phrase
    rw [program_of_phrase phrase]
    exact ⟨rfl, rfl⟩
  · rintro ⟨quiet, rfl⟩
    rcases program_follows ls with ⟨-, phrase⟩ | ⟨f, first, -⟩
    · exact phrase
    · simp [quiet] at first

theorem faults_eq_nil_iff (ls : List Lexeme) : (program ls).faults = [] ↔ Grammatical ls := by
  constructor
  · intro quiet
    exact ⟨_, (phrase_program_iff ls _).2 ⟨quiet, rfl⟩⟩
  · rintro ⟨ss, phrase⟩
    exact ((phrase_program_iff ls ss).1 phrase).1

theorem not_grammatical {ls : List Lexeme} (h : (program ls).faults.isEmpty = false) :
    ¬Grammatical ls := by
  intro grammatical
  rw [(faults_eq_nil_iff ls).2 grammatical] at h
  cases h

end Parse

theorem parseTokens_accepts_grammar (tokens : List Token) (source : Option String) :
    ((parseTokens tokens source).diagnostics = [] ↔ Grammatical (Token.lexemes tokens)) ∧
      ∀ p : Program, Phrase .program (Token.lexemes tokens) p.statements ↔
        (parseTokens tokens source).diagnostics = [] ∧ (parseTokens tokens source).program = p := by
  rw [parseTokens_diagnostics, parseTokens_program, List.map_eq_nil_iff]
  refine ⟨Parse.faults_eq_nil_iff _, fun p => ?_⟩
  obtain ⟨ss⟩ := p
  rw [Parse.phrase_program_iff, Program.mk.injEq]

end ScriptFrontend
