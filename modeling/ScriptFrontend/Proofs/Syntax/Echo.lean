import ScriptFrontend.Proofs.Syntax.Dispatch

/-!
# Expressions in panic

The routines that read expressions go by the lexemes before them alone. So in panic they go the way
that they go in any other state, only that no fault is noted.
-/
namespace ScriptFrontend.Parse
open Reading

/-- In panic with the given faults, at the place of the other cursor. -/
def Cursor.Echoes (fs : List Fault) (s t : Cursor) : Prop :=
  s.panicking = true ∧ s.faults = fs ∧ s.pending = t.pending

variable {fs : List Fault} {s t s' t' : Cursor} {α β γ δ : Type}

namespace Cursor.Echoes

theorem moveTo (h : s.Echoes fs t) (rest : List Lexeme) : (s.moveTo rest).Echoes fs (t.moveTo rest) :=
  ⟨h.1, h.2.1, rfl⟩

theorem report (h : s.Echoes fs t) (cause : FaultCause) :
    (s.report cause).Echoes fs (t.report cause) :=
  ⟨rfl, (if_pos h.1).trans h.2.1, congrArg resynchronize h.2.2⟩

theorem sees (h : s.Echoes fs t) (b : Symbol) : s.sees b = t.sees b := by
  unfold Cursor.sees
  rw [h.2.2]

theorem bind {r : Reading s α} {r' : Reading t β} {go : α → (u : Cursor) → s.Leads u → Reading u γ}
    {go' : β → (u : Cursor) → t.Leads u → Reading u δ} (h : r.next.Echoes fs r'.next)
    (k : ∀ v v' (u u' : Cursor) lead lead', u.Echoes fs u' →
      (go v u lead).next.Echoes fs (go' v' u' lead').next) :
    (r.bind go).next.Echoes fs (r'.bind go').next :=
  k _ _ _ _ r.leads r'.leads h

theorem expect (h : s.Echoes fs t) (slot : SymbolSlot) :
    (s.expect slot).next.Echoes fs (t.expect slot).next := by
  by_cases found : ∃ rest, t.pending = .symbol slot.symbol :: rest
  · obtain ⟨rest, ht⟩ := found
    rw [expect_found (h.2.2.trans ht), expect_found ht]
    exact h.moveTo rest
  · have missing : t.pending.head? ≠ some (.symbol slot.symbol) := by
      intro head
      obtain ⟨rest, ht⟩ := List.head?_eq_some_iff.1 head
      exact found ⟨rest, ht⟩
    rw [expect_missing (h.2.2 ▸ missing), expect_missing missing]
    exact h.report _

theorem noOperand (h : s.Echoes fs t) : (noOperand s).next.Echoes fs (noOperand t).next := by
  have reported := h.report .noOperand
  unfold Parse.noOperand
  by_cases stays : (t.report .noOperand).pending.length = t.pending.length
  · rw [if_pos stays, if_pos (by rw [reported.2.2, h.2.2, stays])]
    exact ⟨reported.1, reported.2.1, congrArg List.tail h.2.2⟩
  · rw [if_neg stays, if_neg (by rwa [reported.2.2, h.2.2])]
    exact reported

end Cursor.Echoes

mutual

theorem operand_echoes {s t : Cursor} (h : s.Echoes fs t) : (operand s).next.Echoes fs (operand t).next := by
  by_cases opens : ∀ l ∈ t.pending.head?, l.opensOperand = false
  · rw [operand_closed (h.2.2 ▸ opens), operand_closed opens]
    exact h.noOperand
  cases ht : t.pending with
  | nil => simp [ht] at opens
  | cons m rest =>
    have hs := h.2.2.trans ht
    have shorter := Cursor.length_of_cons hs
    cases m with
    | integer value =>
      rw [operand_of_integer hs, operand_of_integer ht]
      exact h.moveTo rest
    | decimal value =>
      rw [operand_of_decimal hs, operand_of_decimal ht]
      exact h.moveTo rest
    | text content =>
      rw [operand_of_text hs, operand_of_text ht]
      exact h.moveTo rest
    | name word =>
      by_cases call : rest.head? = some (.symbol .openParen)
      · obtain ⟨inner, cut⟩ := List.head?_eq_some_iff.1 call
        rw [cut] at hs ht
        have shorter := Cursor.length_of_cons₂ hs
        rw [operand_of_call hs, operand_of_call ht, widen_next, widen_next]
        apply (argumentList_echoes (h.moveTo inner)).bind
        intro es es' u u' _ _ k
        exact k.expect .closeArguments
      · rw [operand_of_name hs call, operand_of_name ht call]
        exact h.moveTo rest
    | symbol b =>
      rcases Lexeme.symbol_of_opensOperand (by simpa [ht] using opens) with rfl | ⟨op, rfl⟩
      · rw [operand_of_group hs, operand_of_group ht, widen_next, widen_next]
        apply (expression_echoes (h.moveTo rest)).bind
        intro e e' u u' _ _ k
        exact k.expect .closeGroup
      · rw [operand_of_sign hs, operand_of_sign ht]
        exact operand_echoes (h.moveTo rest)
termination_by 4 * s.pending.length

theorem chain_echoes {s t : Cursor} (h : s.Echoes fs t) : (chain s).next.Echoes fs (chain t).next := by
  by_cases operator : ∃ (op : BinaryOp) (rest : List Lexeme), t.pending = .symbol op.symbol :: rest
  · obtain ⟨op, rest, ht⟩ := operator
    have hs := h.2.2.trans ht
    have shorter := Cursor.length_of_cons hs
    rw [chain_of_operator hs, chain_of_operator ht, widen_next, widen_next]
    apply (operand_echoes (h.moveTo rest)).bind
    intro right right' u u' lead _ k
    have : u.pending.length ≤ rest.length := lead.length_le
    exact chain_echoes k
  · have stays (op : BinaryOp) : t.pending.head? ≠ some (.symbol op.symbol) := by
      intro head
      obtain ⟨rest, ht⟩ := List.head?_eq_some_iff.1 head
      exact operator ⟨op, rest, ht⟩
    rw [chain_stay (h.2.2 ▸ stays), chain_stay stays]
    exact h
termination_by 4 * s.pending.length

theorem expression_echoes {s t : Cursor} (h : s.Echoes fs t) :
    (expression s).next.Echoes fs (expression t).next := by
  rw [expression, expression]
  apply (operand_echoes h).bind
  intro first first' u u' lead _ k
  have := lead.length_le
  exact chain_echoes k
termination_by 4 * s.pending.length + 1

theorem arguments_echoes {s t : Cursor} (h : s.Echoes fs t) :
    (arguments s).next.Echoes fs (arguments t).next := by
  rw [arguments, arguments]
  apply (expression_echoes h).bind
  intro first first' u u' lead _ k
  have := lead.length_le
  dsimp only
  split
  · rename_i rest hu
    have := Cursor.length_of_cons hu
    split
    · rename_i rest' hu'
      obtain rfl : rest = rest' := List.tail_eq_of_cons_eq (hu.symm.trans (k.2.2.trans hu'))
      exact arguments_echoes (k.moveTo rest)
    · rename_i other
      exact absurd (k.2.2.symm.trans hu) (other rest)
  · rename_i other
    split
    · rename_i rest' hu'
      exact absurd (k.2.2.trans hu') (other rest')
    · exact k
termination_by 4 * s.pending.length + 2

theorem argumentList_echoes {s t : Cursor} (h : s.Echoes fs t) :
    (argumentList s).next.Echoes fs (argumentList t).next := by
  rw [argumentList, argumentList, h.sees]
  split
  · exact h
  · exact arguments_echoes h
termination_by 4 * s.pending.length + 3

end
end ScriptFrontend.Parse
