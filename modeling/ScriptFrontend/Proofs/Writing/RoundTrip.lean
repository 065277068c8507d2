import ScriptFrontend.Proofs.Syntax.Acceptance
import ScriptFrontend.Proofs.Writing.Layout
import ScriptFrontend.Proofs.Writing.Phrases

/-!
# What was written is read back

Every layout of the written lexemes of a program is read as the same program, without a diagnostic.
-/
namespace ScriptFrontend
open Scanning

section Spellable
variable {ls ks : List Lexeme}

theorem spellable_grouped {needed : Bool} (h : ∀ l ∈ ls, Spellable l) :
    ∀ l ∈ grouped needed ls, Spellable l := by
  cases needed with
  | false => exact h
  | true =>
    simp only [grouped, if_true, List.forall_mem_cons, List.forall_mem_append]
    exact ⟨spellable_symbol _, h, spellable_symbol _, by simp⟩

theorem spellable_braced (h : ∀ l ∈ ls, Spellable l) : ∀ l ∈ braced ls, Spellable l := by
  simp only [braced, List.forall_mem_cons, List.forall_mem_append]
  exact ⟨spellable_symbol _, h, spellable_symbol _, by simp⟩

mutual

theorem spellable_expression : ∀ e : Expr, e.Writable → ∀ l ∈ e.written, Spellable l
  | .literal value, h => by simpa [Expr.written] using spellable_literal h
  | .identifier word, h => by simpa [Expr.written] using spellable_name h
  | .binary op left right, h => by
    simp only [Expr.written, List.forall_mem_cons, List.forall_mem_append]
    exact ⟨spellable_grouped (spellable_expression left h.1), spellable_symbol _,
      spellable_grouped (spellable_expression right h.2)⟩
  | .unary op operand, h => by
    simp only [Expr.written, List.forall_mem_cons]
    exact ⟨spellable_symbol _, spellable_grouped (spellable_expression operand h)⟩
  | .call callee es, h => by
    simp only [Expr.written, List.forall_mem_cons, List.forall_mem_append]
    exact ⟨spellable_name h.1, spellable_symbol _, spellable_arguments es h.2, spellable_symbol _, by simp⟩

theorem spellable_arguments : ∀ es : List Expr, WritableArguments es →
    ∀ l ∈ writtenArguments es, Spellable l
  | [], _ => by simp [writtenArguments]
  | [e], h => spellable_expression e h.1
  | e :: e' :: es, h => by
    simp only [writtenArguments, List.forall_mem_cons, List.forall_mem_append]
    exact ⟨spellable_expression e h.1, spellable_symbol _, spellable_arguments (e' :: es) h.2⟩

end

theorem spellable_names : ∀ words : List String, (∀ word ∈ words, IsName word) →
    ∀ l ∈ writtenNames words, Spellable l
  | [], _ => by simp [writtenNames]
  | [word], h => by simpa [writtenNames] using spellable_name (h word (by simp))
  | word :: next :: words, h => by
    simp only [writtenNames, List.forall_mem_cons]
    exact ⟨spellable_name (h word (by simp)), spellable_symbol _,
      spellable_names (next :: words) fun w hw => h w (by simp [hw])⟩

mutual

theorem spellable_statement : ∀ s : Stmt, s.Writable → ∀ l ∈ s.written, Spellable l
  | .declaration word e, h => by
    simp only [Stmt.written, List.forall_mem_cons, List.forall_mem_append]
    exact ⟨spellable_symbol _, spellable_name h.1, spellable_symbol _, spellable_expression e h.2,
      spellable_symbol _, by simp⟩
  | .assignment word e, h => by
    simp only [Stmt.written, List.forall_mem_cons, List.forall_mem_append]
    exact ⟨spellable_name h.1, spellable_symbol _, spellable_expression e h.2, spellable_symbol _, by simp⟩
  | .block _, h => h.elim
  | .ifThen e body, h | .whileLoop e body, h => by
    simp only [Stmt.written, List.forall_mem_cons, List.forall_mem_append]
    exact ⟨spellable_symbol _, spellable_symbol _, spellable_expression e h.1, spellable_symbol _,
      spellable_braced (spellable_statements body h.2)⟩
  | .ifThenElse e consequent alternative, h => by
    simp only [Stmt.written, List.forall_mem_cons, List.forall_mem_append]
    exact ⟨spellable_symbol _, spellable_symbol _, spellable_expression e h.1, spellable_symbol _,
      spellable_braced (spellable_statements consequent h.2.1), spellable_symbol _,
      spellable_braced (spellable_statements alternative h.2.2)⟩
  | .function word names body, h => by
    simp only [Stmt.written, List.forall_mem_cons, List.forall_mem_append]
    exact ⟨spellable_symbol _, spellable_name h.1, spellable_symbol _, spellable_names names h.2.1,
      spellable_symbol _, spellable_braced (spellable_statements body h.2.2)⟩
  | .returnValue e, h => by
    simp only [Stmt.written, List.forall_mem_cons, List.forall_mem_append]
    exact ⟨spellable_symbol _, spellable_expression e h, spellable_symbol _, by simp⟩
  | .expression e, h => by
    simp only [Stmt.written, List.forall_mem_cons, List.forall_mem_append]
    exact ⟨spellable_expression e h, spellable_symbol _, by simp⟩

theorem spellable_statements : ∀ ss : List Stmt, WritableStatements ss →
    ∀ l ∈ writtenStatements ss, Spellable l
  | [], _ => by simp [writtenStatements]
  | s :: ss, h => by
    simp only [writtenStatements, List.forall_mem_append]
    exact ⟨spellable_statement s h.1, spellable_statements ss h.2⟩

end
end Spellable

theorem parse_of_phrase {ls : List Lexeme} {ss : List Stmt} {text : String}
    (layout : Layout ls text.toList) (phrase : Phrase .program ls ss) : parse text = .ok ⟨⟨ss⟩, []⟩ := by
  obtain ⟨tokens, accepted, rfl⟩ := layout.tokenize
  obtain ⟨quiet, rfl⟩ := (Parse.phrase_program_iff _ ss).1 phrase
  have whole : parseTokens tokens (some text) =
      ⟨(parseTokens tokens (some text)).program, (parseTokens tokens (some text)).diagnostics⟩ := rfl
  rw [parse_of_tokenize accepted, whole, parseTokens_program, parseTokens_diagnostics, quiet]
  rfl

theorem parse_written {p : Program} (writable : WritableStatements p.statements) :
    (∃ text : String, Layout (writtenStatements p.statements) text.toList) ∧
      ∀ text : String, Layout (writtenStatements p.statements) text.toList →
        parse text = .ok ⟨p, []⟩ :=
  ⟨exists_layout (spellable_statements p.statements writable),
    fun _ layout => parse_of_phrase layout (statements_phrase p.statements writable)⟩

/-- Operators of every level inside a definition with a chain of conditionals:
`- ( a + f ( 2 , "s" ) ) * ( b - ( c - 1.5 ) )` and the like. -/
def sampleProgram : Program :=
  ⟨[.function "f" ["a", "b"]
      [.declaration "c" (.binary .mul
          (.unary .negate (.binary .add (.identifier "a")
            (.call "f" [.literal (.integer 2), .literal (.text "s")])))
          (.binary .sub (.identifier "b") (.binary .sub (.identifier "c")
            (.literal (.decimal (Decimal.floatOfDigits ['1'] ['5'])))))),
        .ifThenElse (.binary .either (.binary .lt (.identifier "a") (.identifier "b")) (.identifier "c"))
          [.returnValue (.identifier "c")]
          [.ifThen (.unary .negate (.unary .plus (.identifier "a"))) [.assignment "a" (.call "g" [])]]]]⟩

theorem parse_written_sampleProgram :
    WritableStatements sampleProgram.statements ∧
      (∃ text : String, Layout (writtenStatements sampleProgram.statements) text.toList) ∧
      ∀ text : String, Layout (writtenStatements sampleProgram.statements) text.toList →
        parse text = .ok ⟨sampleProgram, []⟩ := by
  have a : IsName "a" := ⟨'a', [], rfl, rfl, List.forall_mem_nil _, by decide⟩
  have b : IsName "b" := ⟨'b', [], rfl, rfl, List.forall_mem_nil _, by decide⟩
  have c : IsName "c" := ⟨'c', [], rfl, rfl, List.forall_mem_nil _, by decide⟩
  have f : IsName "f" := ⟨'f', [], rfl, rfl, List.forall_mem_nil _, by decide⟩
  have g : IsName "g" := ⟨'g', [], rfl, rfl, List.forall_mem_nil _, by decide⟩
  have number : IsDecimal (Decimal.floatOfDigits ['1'] ['5']) :=
    ⟨['1'], ['5'], by decide, List.all_eq_true.1 rfl, List.all_eq_true.1 rfl, rfl⟩
  have writable : WritableStatements sampleProgram.statements := by
    simp [sampleProgram, WritableStatements, Stmt.Writable, Expr.Writable, WritableArguments,
      Literal.Writable, a, b, c, f, g, number]
  exact ⟨writable, parse_written writable⟩

end ScriptFrontend
