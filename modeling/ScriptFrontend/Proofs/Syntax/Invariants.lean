import ScriptFrontend.Proofs.Syntax.Dispatch

/-!
# Invariants of the cursor

What every single step of reading keeps is kept by every routine. The steps are: to pass a lexeme, to
note a fault and skip, to give up where no operand starts, to close a block, and to go on behind a
statement that was read from a fresh start.
-/
namespace ScriptFrontend.Parse

structure Invariant (I : Cursor → Prop) : Prop where
  start : ∀ ls, I (.start ls)
  pass : ∀ {s : Cursor} {l : Lexeme} {rest : List Lexeme},
    I s → s.pending = l :: rest → I (s.moveTo rest)
  report : ∀ {s : Cursor} {cause : FaultCause}, I s → cause ≠ .noOperand → I (s.report cause)
  giveUp : ∀ {s : Cursor}, I s → I (noOperand s).next
  close : ∀ {s : Cursor} {rest : List Lexeme},
    I s → s.pending = .symbol .closeBrace :: rest → I (s.moveTo rest).calm
  resume : ∀ {s : Cursor}, I s → s.pending ≠ [] → s.sees .closeBrace = false →
    I (statement (.start s.pending)).next → I (s.resume (statement (.start s.pending)).next)

/-- The reading ends where the property holds. -/
def Reading.Keeps (I : Cursor → Prop) {s : Cursor} {α : Type} (r : Reading s α) : Prop :=
  I r.next

namespace Reading.Keeps
variable {I : Cursor → Prop} {s t : Cursor} {α β : Type}

theorem widen {r : Reading t α} (hr : r.Keeps I) (lead : s.Leads t) : (r.widen lead).Keeps I := hr

theorem bind {r : Reading s α} {go : α → (t : Cursor) → s.Leads t → Reading t β} (hr : r.Keeps I)
    (hg : ∀ v t lead, I t → (go v t lead).Keeps I) : (r.bind go).Keeps I :=
  hg _ _ r.leads hr

end Reading.Keeps

open Reading

namespace Invariant
variable {I : Cursor → Prop} {s t : Cursor}

theorem pass₂ (h : Invariant I) (hs : I s) {l m : Lexeme} {rest : List Lexeme}
    (pending : s.pending = l :: m :: rest) :
    I (s.moveTo rest) :=
  h.pass (s := s.moveTo (m :: rest)) (h.pass hs pending) rfl

theorem keeps_expect (h : Invariant I) (hs : I s) (slot : SymbolSlot) : (s.expect slot).Keeps I := by
  unfold Cursor.expect
  split
  · rename_i b rest pending
    split
    · exact h.pass hs pending
    · exact h.report hs (by simp)
  · exact h.report hs (by simp)

theorem keeps_expectName (h : Invariant I) (hs : I s) (slot : NameSlot) : (s.expectName slot).Keeps I := by
  unfold Cursor.expectName
  split
  · rename_i word rest pending
    exact h.pass hs pending
  · exact h.report hs (by simp)

mutual

theorem keeps_operand (h : Invariant I) (s : Cursor) (hs : I s) : (operand s).Keeps I := by
  rw [operand]
  split
  · rename_i value rest pending
    exact h.pass hs pending
  · rename_i value rest pending
    exact h.pass hs pending
  · rename_i content rest pending
    exact h.pass hs pending
  · rename_i callee rest pending
    have := Cursor.length_of_cons₂ pending
    apply Keeps.widen
    apply Keeps.bind (h.keeps_argumentList (s.moveTo rest) (h.pass₂ hs pending))
    intro es t lead ht
    exact h.keeps_expect ht .closeArguments
  · rename_i word rest _ pending
    exact h.pass hs pending
  · rename_i rest pending
    have := Cursor.length_of_cons pending
    apply Keeps.widen
    apply Keeps.bind (h.keeps_expression (s.moveTo rest) (h.pass hs pending))
    intro e t lead ht
    exact h.keeps_expect ht .closeGroup
  · rename_i rest pending
    have := Cursor.length_of_cons pending
    exact h.keeps_operand (s.moveTo rest) (h.pass hs pending)
  · rename_i rest pending
    have := Cursor.length_of_cons pending
    exact h.keeps_operand (s.moveTo rest) (h.pass hs pending)
  · exact h.giveUp hs
termination_by 4 * s.pending.length

theorem keeps_chain (h : Invariant I) (s : Cursor) (hs : I s) : (chain s).Keeps I := by
  rw [chain]
  split
  · rename_i b rest pending
    split
    · have := Cursor.length_of_cons pending
      apply Keeps.widen
      apply Keeps.bind (h.keeps_operand (s.moveTo rest) (h.pass hs pending))
      intro right t lead ht
      have : t.pending.length ≤ rest.length := lead.length_le
      exact h.keeps_chain t ht
    · exact hs
  · exact hs
termination_by 4 * s.pending.length

theorem keeps_expression (h : Invariant I) (s : Cursor) (hs : I s) : (expression s).Keeps I := by
  rw [expression]
  apply Keeps.bind (h.keeps_operand s hs)
  intro first t lead ht
  have := lead.length_le
  exact h.keeps_chain t ht
termination_by 4 * s.pending.length + 1

theorem keeps_arguments (h : Invariant I) (s : Cursor) (hs : I s) : (arguments s).Keeps I := by
  rw [arguments]
  apply Keeps.bind (h.keeps_expression s hs)
  intro first t lead ht
  have := lead.length_le
  split
  · rename_i rest pending
    have := Cursor.length_of_cons pending
    exact h.keeps_arguments (t.moveTo rest) (h.pass ht pending)
  · exact ht
termination_by 4 * s.pending.length + 2

theorem keeps_argumentList (h : Invariant I) (s : Cursor) (hs : I s) : (argumentList s).Keeps I := by
  rw [argumentList]
  split
  · exact hs
  · exact h.keeps_arguments s hs
termination_by 4 * s.pending.length + 3

end

/-! Statements -/

theorem keeps_finished (h : Invariant I) (hs : I s) (slot : SymbolSlot) (build : Expr → Stmt) :
    I ((expression s).bind fun e t _ => finish t slot (build e)).next := by
  apply Keeps.bind (h.keeps_expression s hs)
  intro e t lead ht
  exact h.keeps_expect ht slot

theorem keeps_declaration (h : Invariant I) (hs : I s) : (declaration s).Keeps I := by
  unfold declaration
  apply Keeps.bind (h.keeps_expectName hs .variableName)
  intro word t lead ht
  cases word with
  | none => exact ht
  | some word =>
    apply Keeps.bind (h.keeps_expect ht .assignment)
    intro found u lead hu
    split
    · exact h.keeps_finished hu .endOfDeclaration (.declaration word)
    · exact hu

theorem keeps_assignment (h : Invariant I) (word : String) (hs : I s) : (assignment word s).Keeps I := by
  unfold assignment
  split
  · exact h.report hs (by simp)
  · exact h.keeps_finished hs .endOfAssignment (.assignment word)

theorem keeps_condition (h : Invariant I) (c : Conditional) (hs : I s) : (condition c s).Keeps I := by
  unfold condition
  apply Keeps.bind (h.keeps_expect hs (.openCondition c))
  intro opened t lead ht
  split
  · apply Keeps.bind (h.keeps_expression t ht)
    intro e u lead hu
    exact h.keeps_expect hu (.closeCondition c)
  · exact ht

theorem keeps_moreParameters (h : Invariant I) (s : Cursor) (hs : I s) : (moreParameters s).Keeps I := by
  rw [moreParameters]
  split
  · rename_i rest pending
    have := Cursor.length_of_cons pending
    apply Keeps.widen
    apply Keeps.bind (h.keeps_expectName (h.pass hs pending) .nextParameter)
    intro word t lead ht
    have : t.pending.length ≤ rest.length := lead.length_le
    exact h.keeps_moreParameters t ht
  · exact hs
termination_by s.pending.length

theorem keeps_parameters (h : Invariant I) (hs : I s) : (parameters s).Keeps I := by
  unfold parameters
  split
  · exact hs
  · apply Keeps.bind (h.keeps_expectName hs .firstParameter)
    intro word t lead ht
    exact h.keeps_moreParameters t ht

mutual

theorem keeps_statement (h : Invariant I) (s : Cursor) (hs : I s) : (statement s).Keeps I := by
  rw [statement]
  split
  · rename_i rest pending
    exact h.keeps_declaration (h.pass hs pending)
  · rename_i rest pending
    have := Cursor.length_of_cons pending
    exact h.keeps_conditional (s.moveTo rest) (h.pass hs pending)
  · rename_i rest pending
    have := Cursor.length_of_cons pending
    exact h.keeps_loop (s.moveTo rest) (h.pass hs pending)
  · rename_i rest pending
    have := Cursor.length_of_cons pending
    exact h.keeps_function (s.moveTo rest) (h.pass hs pending)
  · rename_i rest pending
    exact h.keeps_finished (h.pass hs pending) .endOfReturn .returnValue
  · rename_i word rest pending
    exact h.keeps_assignment word (h.pass₂ hs pending)
  · exact h.report hs (by simp)
  · exact h.keeps_finished hs .endOfExpression .expression
termination_by 2 * s.pending.length

theorem keeps_conditional (h : Invariant I) (s : Cursor) (hs : I s) : (conditional s).Keeps I := by
  rw [conditional]
  apply Keeps.bind (h.keeps_condition .ifWord hs)
  intro e t lead ht
  cases e with
  | none => exact ht
  | some e =>
    have := lead.length_le
    apply Keeps.bind (h.keeps_block t ht)
    intro consequent u lead hu
    have := lead.length_le
    exact h.keeps_alternative e consequent u hu
termination_by 2 * s.pending.length + 1

theorem keeps_alternative (h : Invariant I) (e : Expr) (consequent : List Stmt) (s : Cursor) (hs : I s) :
    (alternative e consequent s).Keeps I := by
  rw [alternative]
  split
  · rename_i rest pending
    have := Cursor.length_of_cons₂ pending
    exact h.keeps_conditional (s.moveTo rest) (h.pass₂ hs pending)
  · rename_i rest _ pending
    have := Cursor.length_of_cons pending
    exact h.keeps_block (s.moveTo rest) (h.pass hs pending)
  · exact hs
termination_by 2 * s.pending.length

theorem keeps_loop (h : Invariant I) (s : Cursor) (hs : I s) : (loop s).Keeps I := by
  rw [loop]
  apply Keeps.bind (h.keeps_condition .whileWord hs)
  intro e t lead ht
  cases e with
  | none => exact ht
  | some e =>
    have := lead.length_le
    exact h.keeps_block t ht
termination_by 2 * s.pending.length + 1

theorem keeps_function (h : Invariant I) (s : Cursor) (hs : I s) : (function s).Keeps I := by
  rw [function]
  apply Keeps.bind (h.keeps_expectName hs .functionName)
  intro word t first ht
  cases word with
  | none => exact ht
  | some word =>
    apply Keeps.bind (h.keeps_expect ht .openParameters)
    intro opened u second hu
    split
    · apply Keeps.bind (h.keeps_parameters hu)
      intro names v third hv
      apply Keeps.bind (h.keeps_expect hv .closeParameters)
      intro closed w fourth hw
      split
      · have := (((first.trans second).trans third).trans fourth).length_le
        exact h.keeps_block w hw
      · exact hw
    · exact hu
termination_by 2 * s.pending.length + 1

theorem keeps_block (h : Invariant I) (s : Cursor) (hs : I s) : (block s).Keeps I := by
  rw [block]
  split
  · rename_i rest pending
    have := Cursor.length_of_cons pending
    apply Keeps.widen
    apply Keeps.bind (h.keeps_blockBody (s.moveTo rest) (h.pass hs pending))
    intro body t lead ht
    -- The reader calms down only behind a brace that was there.
    by_cases found : t.pending.head? = some (.symbol SymbolSlot.closeBlock.symbol)
    · obtain ⟨more, closing⟩ := List.head?_eq_some_iff.1 found
      rw [Cursor.expect_found closing]
      exact h.close ht closing
    · rw [Cursor.expect_missing found]
      exact h.report ht (by simp)
  · exact h.report hs (by simp)
termination_by 2 * s.pending.length

theorem keeps_blockBody (h : Invariant I) (s : Cursor) (hs : I s) : (blockBody s).Keeps I := by
  by_cases closed : s.pending = [] ∨ s.sees .closeBrace
  · rw [blockBody_closed closed]
    exact hs
  · obtain ⟨nonempty, inside⟩ := not_or.1 closed
    have shorter := Cursor.resume_length_lt (statement (.start s.pending)).leads nonempty
    have first := h.keeps_statement (.start s.pending) (h.start s.pending)
    rw [blockBody_statement closed]
    exact h.keeps_blockBody _ (h.resume hs nonempty (Bool.eq_false_iff.2 inside) first)
termination_by 2 * s.pending.length + 1

end
end Invariant
end ScriptFrontend.Parse
