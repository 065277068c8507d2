import ScriptFrontend.Proofs.Syntax.Invariants
import ScriptFrontend.Proofs.Syntax.Places
import ScriptFrontend.Proofs.Syntax.Progress

/-!
# Faults lie apart

A fault leaves the reader in panic, and the panic lasts until a statement starts or a block is
closed. So within a statement no lexeme carries two faults: either the cursor has passed every fault,
or it panics at the last one and stands where a skip to a boundary does not move it. A statement that
starts at such a boundary passes it first, unless it is a stray closing brace, where it finds no
operand.
-/
namespace ScriptFrontend.Parse

namespace Cursor

/-- In panic at the fault, where skipping gives up nothing. -/
def StuckAt (f : Fault) (s : Cursor) : Prop :=
  s.panicking = true ∧ f.rest = s.pending ∧ resynchronize s.pending = s.pending ∧
    (s.pending ≠ [] → f.cause ≠ .noOperand)

structure Spaced (s : Cursor) : Prop where
  apart : s.faults.Pairwise fun f g => g.rest.length < f.rest.length
  passed : ∀ f ∈ s.faults, s.pending.length < f.rest.length ∨ s.StuckAt f

variable {s t : Cursor} {cause : FaultCause}

theorem report_in_panic (panics : s.panicking = true) (cause : FaultCause) :
    (s.report cause).faults = s.faults := if_pos panics

theorem report_calmly (calm : s.panicking ≠ true) (cause : FaultCause) :
    (s.report cause).faults = s.faults ++ [⟨cause, s.pending⟩] := if_neg calm

theorem Spaced.start (ls : List Lexeme) : (Cursor.start ls).Spaced :=
  ⟨List.Pairwise.nil, List.forall_mem_nil _⟩

theorem Spaced.of_shorter {n : Nat}
    (apart : s.faults.Pairwise fun f g => g.rest.length < f.rest.length)
    (behind : ∀ f ∈ s.faults, n ≤ f.rest.length) (shorter : s.pending.length < n) : s.Spaced :=
  ⟨apart, fun f noted => .inl (Nat.lt_of_lt_of_le shorter (behind f noted))⟩

theorem Spaced.le (h : s.Spaced) : ∀ f ∈ s.faults, s.pending.length ≤ f.rest.length := by
  intro f noted
  rcases h.passed f noted with shorter | ⟨-, here, -⟩
  · exact Nat.le_of_lt shorter
  · exact Nat.le_of_eq (congrArg List.length here.symm)

theorem Spaced.moved (h : s.Spaced) {rest : List Lexeme} (shorter : rest.length < s.pending.length) :
    (s.moveTo rest).Spaced :=
  .of_shorter h.apart h.le shorter

/-- With a new fault at the cursor the faults still lie apart, since only in panic an older one could
be there. -/
theorem Spaced.report_apart (h : s.Spaced) (cause : FaultCause) :
    (s.report cause).faults.Pairwise fun f g => g.rest.length < f.rest.length := by
  by_cases panics : s.panicking = true
  · rw [report_in_panic panics]
    exact h.apart
  · rw [report_calmly panics]
    apply List.pairwise_append.2
    refine ⟨h.apart, List.pairwise_singleton _ _, ?_⟩
    intro f noted g new
    obtain rfl := List.mem_singleton.1 new
    rcases h.passed f noted with shorter | ⟨panicking, -⟩
    · exact shorter
    · exact absurd panicking panics

theorem Spaced.report_le (h : s.Spaced) (cause : FaultCause) :
    ∀ f ∈ (s.report cause).faults, s.pending.length ≤ f.rest.length := by
  intro f noted
  by_cases panics : s.panicking = true
  · rw [report_in_panic panics] at noted
    exact h.le f noted
  · rw [report_calmly panics] at noted
    rcases List.mem_append.1 noted with old | new
    · exact h.le f old
    · exact Nat.le_of_eq (congrArg (·.rest.length) (List.mem_singleton.1 new).symm)

theorem Spaced.report (h : s.Spaced) (outer : cause ≠ .noOperand) : (s.report cause).Spaced := by
  have down := resynchronize_suffix s.pending
  by_cases still : resynchronize s.pending = s.pending
  · refine ⟨h.report_apart cause, fun f noted => ?_⟩
    have place : (s.report cause).pending = s.pending := still
    rw [StuckAt, place]
    by_cases panics : s.panicking = true
    · rw [report_in_panic panics] at noted
      exact (h.passed f noted).imp_right fun stuck => ⟨rfl, stuck.2⟩
    · rw [report_calmly panics] at noted
      rcases List.mem_append.1 noted with old | new
      · rcases h.passed f old with shorter | ⟨panicking, -⟩
        · exact .inl shorter
        · exact absurd panicking panics
      · rw [List.mem_singleton.1 new]
        exact .inr ⟨rfl, rfl, still, fun _ => outer⟩
  · have shorter : (resynchronize s.pending).length < s.pending.length :=
      Nat.lt_of_le_of_ne down.length_le fun same => still (down.eq_of_length same)
    exact .of_shorter (h.report_apart cause) (h.report_le cause) shorter

end Cursor

open Cursor

theorem noOperand_spaced {s : Cursor} (h : s.Spaced) : (noOperand s).next.Spaced := by
  have apart := h.report_apart .noOperand
  have behind := h.report_le .noOperand
  rw [← noOperand_faults] at apart behind
  by_cases empty : s.pending = []
  · -- At the end of the input there is nothing to give up.
    have ended : (noOperand s).next.pending = [] := by
      have le := (noOperand s).length_le
      rw [empty] at le
      exact List.length_eq_zero_iff.1 (Nat.le_zero.1 le)
    refine ⟨apart, fun f noted => ?_⟩
    by_cases here : f.rest = []
    · refine .inr ⟨noOperand_panicking s, by rw [here, ended], ?_, fun more => absurd ended more⟩
      rw [ended]
      rfl
    · rw [ended]
      exact .inl (List.length_pos_iff.2 here)
  · exact .of_shorter apart behind (noOperand_length_lt empty)

/-! Statements at a boundary -/

theorem Reading.leads_bind {s : Cursor} {α β : Type} (r : Reading s α)
    (go : α → (t : Cursor) → s.Leads t → Reading t β) : r.next.Leads (r.bind go).next :=
  (go r.value r.next r.leads).leads

theorem Reading.rest_suffix {ls : List Lexeme} {α : Type} {r : Reading (.start ls) α} {f : Fault}
    (noted : f ∈ r.next.faults) : f.rest <:+ ls := by
  obtain ⟨later, faults, trail⟩ := r.leads
  rw [start_faults, List.nil_append] at faults
  exact trail.rest_suffix f (faults ▸ noted)

theorem symbol_of_stuck {l : Lexeme} {rest : List Lexeme}
    (stuck : resynchronize (l :: rest) = l :: rest) :
    ∃ b ∈ [Symbol.closeBrace, .kwIf, .kwWhile, .kwDef, .kwReturn, .kwVar], l = .symbol b := by
  have skips (skipped : resynchronize (l :: rest) <:+ rest) : False := by
    have le := skipped.length_le
    rw [stuck, List.length_cons] at le
    omega
  cases l with
  | symbol b =>
    cases b with
    | semicolon => exact (skips List.suffix_rfl).elim
    | closeBrace | kwIf | kwWhile | kwDef | kwReturn | kwVar => exact ⟨_, by simp, rfl⟩
    | _ => exact (skips (resynchronize_suffix rest)).elim
  | _ => exact (skips (resynchronize_suffix rest)).elim

/-- A keyword at which skipping stops is passed before anything can be missing. -/
theorem statement_faults_lt {ls : List Lexeme} (stuck : resynchronize ls = ls) (nonempty : ls ≠ [])
    (other : ls.head? ≠ some (.symbol .closeBrace)) :
    ∀ g ∈ (statement (.start ls)).next.faults, g.rest.length < ls.length := by
  obtain ⟨l, rest, rfl⟩ := List.exists_cons_of_ne_nil nonempty
  obtain ⟨b, boundary, rfl⟩ := symbol_of_stuck stuck
  intro g noted
  have behind : g.rest <:+ rest := by
    simp only [List.mem_cons, List.not_mem_nil, or_false] at boundary
    rcases boundary with rfl | rfl | rfl | rfl | rfl | rfl
    · exact absurd rfl other
    · rw [statement_conditional] at noted
      exact Reading.rest_suffix noted
    · rw [statement_loop] at noted
      exact Reading.rest_suffix noted
    · rw [statement_function] at noted
      exact Reading.rest_suffix noted
    · rw [statement_returned] at noted
      exact Reading.rest_suffix noted
    · rw [statement_declaration] at noted
      exact Reading.rest_suffix noted
  exact Nat.lt_succ_of_le behind.length_le

/-- A statement that starts at a closing brace finds no operand there. -/
theorem statement_closeBrace_faults (rest : List Lexeme) :
    (statement (.start (.symbol .closeBrace :: rest))).next.faults.head? =
      some ⟨.noOperand, .symbol .closeBrace :: rest⟩ := by
  have refused : (operand (.start (.symbol .closeBrace :: rest))).next.faults.head? =
      some ⟨.noOperand, .symbol .closeBrace :: rest⟩ := by
    rw [operand_other (by simp [Lexeme.opensOperand]), noOperand_faults]
    rfl
  rw [statement_plain rfl (fun _ => Lexeme.noConfusion), evaluated, expression]
  apply Leads.head?_faults (Reading.leads_bind _ _)
  exact Leads.head?_faults (Reading.leads_bind _ _) refused

namespace Cursor

theorem Spaced.resume {s : Cursor} (h : s.Spaced) (nonempty : s.pending ≠ [])
    (other : s.pending.head? ≠ some (.symbol .closeBrace))
    (first : (statement (.start s.pending)).next.Spaced) :
    (s.resume (statement (.start s.pending)).next).Spaced := by
  have place := resume_statement nonempty
  have shorter := statement_length_lt (s := .start s.pending) nonempty
  refine ⟨?_, ?_⟩
  · apply List.pairwise_append.2
    refine ⟨h.apart, first.apart, ?_⟩
    intro f old g new
    have within : g.rest.length ≤ s.pending.length := (Reading.rest_suffix new).length_le
    rcases h.passed f old with passed | ⟨-, here, stuck, -⟩
    · exact Nat.lt_of_le_of_lt within passed
    · rw [here]
      exact statement_faults_lt stuck nonempty other g new
  · intro f noted
    rw [StuckAt, place]
    rcases List.mem_append.1 noted with old | new
    · exact .inl (Nat.lt_of_lt_of_le shorter (h.le f old))
    · exact first.passed f new

theorem invariant_spaced : Invariant Spaced where
  start := Spaced.start
  pass := by
    intro s l rest spaced pending
    have := length_of_cons pending
    apply spaced.moved
    omega
  report := fun spaced outer => spaced.report outer
  giveUp := noOperand_spaced
  close := by
    intro s rest spaced pending
    have := length_of_cons pending
    have shorter : rest.length < s.pending.length := by omega
    exact .of_shorter (s := (s.moveTo rest).calm) spaced.apart spaced.le shorter
  resume := by
    intro s spaced nonempty inside first
    apply spaced.resume nonempty _ first
    intro head
    have seen : s.sees .closeBrace = true := (start_sees s.pending .closeBrace).2 head
    rw [inside] at seen
    cases seen

end Cursor

theorem statement_spaced (ls : List Lexeme) : (statement (.start ls)).next.Spaced :=
  invariant_spaced.keeps_statement _ (Spaced.start ls)

end ScriptFrontend.Parse
