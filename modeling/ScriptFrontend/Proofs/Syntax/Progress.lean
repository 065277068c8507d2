import ScriptFrontend.Proofs.Syntax.FirstFault

/-!
# The cursor moves forward, and not past the end of the input

A cursor stands on a token of the sequence: the one behind as many lexemes as have been read. No
routine moves it back or past the first end of the input, a statement moves it by at least one token
unless the input has ended, and reading a program leaves it exactly on the end of the input, where
further programs are empty.
-/
namespace ScriptFrontend
namespace Parse

/-! Progress -/

section Progress
variable {s t : Cursor} {α β : Type}

theorem Reading.widen_length_lt (shorter : t.pending.length < s.pending.length) (lead : s.Leads t)
    (r : Reading t α) : (r.widen lead).next.pending.length < s.pending.length :=
  Nat.lt_of_le_of_lt r.length_le shorter

theorem Reading.behind_length_lt {l : Lexeme} {rest : List Lexeme} (hs : s.pending = l :: rest)
    (lead : s.Leads (s.moveTo rest)) (r : Reading (s.moveTo rest) α) :
    (r.widen lead).next.pending.length < s.pending.length := by
  have shorter : (s.moveTo rest).pending.length < s.pending.length := by
    rw [hs, List.length_cons, Cursor.moveTo_pending]
    exact Nat.lt_succ_self _
  exact widen_length_lt shorter lead r

theorem Reading.behind₂_length_lt {l m : Lexeme} {rest : List Lexeme} (hs : s.pending = l :: m :: rest)
    (lead : s.Leads (s.moveTo rest)) (r : Reading (s.moveTo rest) α) :
    (r.widen lead).next.pending.length < s.pending.length := by
  have shorter : (s.moveTo rest).pending.length < s.pending.length := by
    rw [hs, Cursor.moveTo_pending, List.length_cons, List.length_cons]
    omega
  exact widen_length_lt shorter lead r

theorem Reading.move_length_lt {v : α} {l : Lexeme} {rest : List Lexeme} (hs : s.pending = l :: rest)
    (lead : s.Leads (s.moveTo rest)) :
    (Reading.move v rest lead).next.pending.length < s.pending.length :=
  behind_length_lt hs lead (.stay (s.moveTo rest) v)

theorem Reading.bind_length_lt {r : Reading s α} (shorter : r.next.pending.length < s.pending.length)
    (go : α → (t : Cursor) → s.Leads t → Reading t β) :
    (r.bind go).next.pending.length < s.pending.length :=
  widen_length_lt shorter r.leads _

/-- Where skipping to a boundary gives up nothing, the boundary itself is given up. -/
theorem noOperand_length_lt (h : s.pending ≠ []) :
    (noOperand s).next.pending.length < s.pending.length := by
  have le := (s.leads_report .noOperand).length_le
  have nonempty := List.length_pos_iff.2 h
  unfold noOperand
  split
  case isTrue same =>
    rw [Cursor.moveTo_pending, List.length_tail]
    omega
  case isFalse moved => exact Nat.lt_of_le_of_ne le moved

theorem operand_length_lt (h : s.pending ≠ []) :
    (operand s).next.pending.length < s.pending.length := by
  rw [operand]
  split
  · rename_i value rest hs
    exact Reading.move_length_lt hs _
  · rename_i value rest hs
    exact Reading.move_length_lt hs _
  · rename_i content rest hs
    exact Reading.move_length_lt hs _
  · rename_i callee rest hs
    exact Reading.behind₂_length_lt hs _ _
  · rename_i word rest _ hs
    exact Reading.move_length_lt hs _
  · rename_i rest hs
    exact Reading.behind_length_lt hs _ _
  · rename_i rest hs
    exact Reading.behind_length_lt hs _ _
  · rename_i rest hs
    exact Reading.behind_length_lt hs _ _
  · exact noOperand_length_lt h

theorem evaluated_length_lt (h : s.pending ≠ []) :
    (evaluated s).next.pending.length < s.pending.length := by
  unfold evaluated
  rw [expression]
  apply Reading.bind_length_lt
  exact Reading.bind_length_lt (operand_length_lt h) _

theorem statement_length_lt (h : s.pending ≠ []) :
    (statement s).next.pending.length < s.pending.length := by
  rw [statement]
  split
  · rename_i rest hs
    exact Reading.behind_length_lt hs _ _
  · rename_i rest hs
    exact Reading.behind_length_lt hs _ _
  · rename_i rest hs
    exact Reading.behind_length_lt hs _ _
  · rename_i rest hs
    exact Reading.behind_length_lt hs _ _
  · rename_i rest hs
    exact Reading.behind_length_lt hs _ _
  · rename_i word rest hs
    exact Reading.behind₂_length_lt hs _ _
  · -- A stray `else` is no boundary, so the skip to one gives it up.
    rename_i rest hs
    have skipped : (s.report .strayElse).pending = resynchronize rest := by
      simp [Cursor.report, hs, resynchronize, isBoundary]
    have le := (resynchronize_suffix rest).length_le
    have count := Cursor.length_of_cons hs
    simp only [Reading.fault, skipped]
    omega
  · exact evaluated_length_lt h

end Progress

/-- The loops over statements never have to give up a lexeme of their own accord. -/
theorem Cursor.resume_statement {s : Cursor} (h : s.pending ≠ []) :
    (s.resume (statement (.start s.pending)).next).pending =
      (statement (.start s.pending)).next.pending := by
  have shorter := statement_length_lt (s := .start s.pending) h
  rw [Cursor.start_pending] at shorter
  simp [Cursor.resume, Nat.ne_of_lt shorter]

theorem program_rest (ls : List Lexeme) : (program ls).rest = [] := by
  induction ls using statements_induction with
  | nil => simp
  | statement ls nonempty ih => rw [program_of_ne_nil nonempty, ih]

/-! Places in the tokens -/

/-- The routines that read a part of a program, each with what it is told. -/
inductive Routine : Type → Type where
  | report (cause : FaultCause) : Routine Unit
  | expect (slot : SymbolSlot) : Routine Bool
  | expectName (slot : NameSlot) : Routine (Option String)
  | noOperand : Routine Expr
  | operand : Routine Expr
  | chain : Routine (List (BinaryOp × Expr))
  | expression : Routine Expr
  | arguments : Routine (List Expr)
  | argumentList : Routine (List Expr)
  | finish (slot : SymbolSlot) (stmt : Stmt) : Routine Stmt
  | declaration : Routine Stmt
  | assignment (word : String) : Routine Stmt
  | returned : Routine Stmt
  | evaluated : Routine Stmt
  | condition (c : Conditional) : Routine (Option Expr)
  | moreParameters : Routine (List String)
  | parameters : Routine (List String)
  | statement : Routine Stmt
  | conditional : Routine Stmt
  | alternative (e : Expr) (consequent : List Stmt) : Routine Stmt
  | loop : Routine Stmt
  | function : Routine Stmt
  | block : Routine (List Stmt)
  | blockBody : Routine (List Stmt)

def Routine.run {α : Type} : Routine α → (s : Cursor) → Reading s α
  | .report cause, s => .fault s cause ()
  | .expect slot, s => s.expect slot
  | .expectName slot, s => s.expectName slot
  | .noOperand, s => Parse.noOperand s
  | .operand, s => Parse.operand s
  | .chain, s => Parse.chain s
  | .expression, s => Parse.expression s
  | .arguments, s => Parse.arguments s
  | .argumentList, s => Parse.argumentList s
  | .finish slot stmt, s => Parse.finish s slot stmt
  | .declaration, s => Parse.declaration s
  | .assignment word, s => Parse.assignment word s
  | .returned, s => Parse.returned s
  | .evaluated, s => Parse.evaluated s
  | .condition c, s => Parse.condition c s
  | .moreParameters, s => Parse.moreParameters s
  | .parameters, s => Parse.parameters s
  | .statement, s => Parse.statement s
  | .conditional, s => Parse.conditional s
  | .alternative e consequent, s => Parse.alternative e consequent s
  | .loop, s => Parse.loop s
  | .function, s => Parse.function s
  | .block, s => Parse.block s
  | .blockBody, s => Parse.blockBody s

namespace Cursor
variable {tokens : List Token} {s t : Cursor}

/-- What the cursor has before it is what the tokens hold from some place on. -/
def On (tokens : List Token) (s : Cursor) : Prop :=
  s.pending <:+ Token.lexemes tokens

/-- The number of tokens behind the cursor. -/
def index (tokens : List Token) (s : Cursor) : Nat :=
  (Token.lexemes tokens).length - s.pending.length

theorem On.leads (h : s.On tokens) (lead : s.Leads t) : t.On tokens :=
  lead.suffix.trans h

theorem index_le_of_leads (lead : s.Leads t) : s.index tokens ≤ t.index tokens :=
  Nat.sub_le_sub_left lead.length_le _

theorem On.index_lt (h : s.On tokens) (shorter : t.pending.length < s.pending.length) :
    s.index tokens < t.index tokens := by
  have le := h.length_le
  unfold index
  omega

theorem On.index_eq (h : s.On tokens) :
    ∃ before, Token.lexemes tokens = before ++ s.pending ∧ s.index tokens = before.length := by
  obtain ⟨before, cut⟩ := h
  refine ⟨before, cut.symm, ?_⟩
  rw [index, ← cut, List.length_append, Nat.add_sub_cancel]

end Cursor
end Parse

theorem Token.exists_seen {tokens : List Token} {a b : List Lexeme} (h : lexemes tokens = a ++ b) :
    ∃ t, (withEnd tokens)[a.length]? = some t ∧ t.kind = b.head? := by
  obtain ⟨front, back, rfl, -, rfl, count, running⟩ := exists_cut h
  obtain ⟨t, behind, whole, kind, -⟩ := exists_at running back
  refine ⟨t, ?_, kind⟩
  rw [whole, ← count, List.getElem?_append_right (Nat.le_refl _), Nat.sub_self]
  rfl

theorem Token.exists_end (tokens : List Token) :
    ∃ front last behind, withEnd tokens = front ++ last :: behind ∧ last.kind = none ∧
      (∀ t ∈ front, t.kind ≠ none) ∧ front.length = (lexemes tokens).length := by
  obtain ⟨front, back, rfl, -, ended, count, running⟩ :=
    exists_cut (List.append_nil (lexemes tokens)).symm
  obtain ⟨last, behind, whole, kind, -⟩ := exists_at running back
  rw [ended] at kind
  exact ⟨front, last, behind, whole, kind, running, count⟩

/-- The token under the cursor is the one that the routines see, and so is the next one if the
cursor is not at the end of the input. -/
theorem Parse.Cursor.On.exists_seen {tokens : List Token} {s : Parse.Cursor} (h : s.On tokens) :
    (∃ t, (Token.withEnd tokens)[s.index tokens]? = some t ∧ t.kind = s.pending.head?) ∧
      (s.pending ≠ [] →
        ∃ t, (Token.withEnd tokens)[s.index tokens + 1]? = some t ∧ t.kind = s.pending.tail.head?) := by
  obtain ⟨before, cut, index⟩ := h.index_eq
  rw [index]
  refine ⟨Token.exists_seen cut, fun nonempty => ?_⟩
  obtain ⟨l, rest, pending⟩ := List.exists_cons_of_ne_nil nonempty
  have next : Token.lexemes tokens = (before ++ [l]) ++ rest := by
    rw [cut, pending, List.append_assoc, List.singleton_append]
  obtain ⟨t, found, kind⟩ := Token.exists_seen next
  rw [List.length_append, List.length_singleton] at found
  exact ⟨t, found, by rw [kind, pending, List.tail_cons]⟩

namespace ParserSession

/-- The session after so many programs have been asked for. -/
def again (p : ParserSession) : Nat → ParserSession
  | 0 => p
  | n + 1 => (p.again n).parseProgram.2

theorem again_pending (p : ParserSession) (n : Nat) : (p.again (n + 1)).pending = [] :=
  Parse.program_rest _

theorem parseProgram_of_finished {p : ParserSession} (h : p.pending = []) :
    p.parseProgram = (⟨[]⟩, p) := by
  obtain ⟨tokens, quoted, pending, diagnostics⟩ := p
  obtain rfl : pending = [] := h
  simp [parseProgram]

end ParserSession

/-- Wherever the end of the input stands among the tokens, reading starts on them. The cursor and its
one token of lookahead are tokens of the sequence, no routine moves the cursor back or past the first
end, every statement moves it, and after a program it is on the end and stays there. -/
theorem cursor_disciplined (tokens : List Token) :
    ∃ front last behind, Token.withEnd tokens = front ++ last :: behind ∧ last.kind = none ∧
      (∀ t ∈ front, t.kind ≠ none) ∧
      (Parse.Cursor.start (ParserSession.ofTokens tokens).pending).On tokens ∧
      (∀ s : Parse.Cursor, s.On tokens → s.index tokens ≤ front.length ∧
        (∃ t, (Token.withEnd tokens)[s.index tokens]? = some t ∧ t.kind = s.pending.head?) ∧
        (s.pending ≠ [] → ∃ t, (Token.withEnd tokens)[s.index tokens + 1]? = some t ∧
          t.kind = s.pending.tail.head?)) ∧
      (∀ {α : Type} (r : Parse.Routine α) (s : Parse.Cursor), s.On tokens →
        (r.run s).next.On tokens ∧ s.index tokens ≤ (r.run s).next.index tokens) ∧
      (∀ s : Parse.Cursor, s.On tokens → s.pending ≠ [] →
        s.index tokens < (Parse.statement s).next.index tokens ∧
        (s.resume (Parse.statement (.start s.pending)).next).pending =
          (Parse.statement (.start s.pending)).next.pending) ∧
      ∀ n, let p := (ParserSession.ofTokens tokens).again (n + 1)
        (Parse.Cursor.start p.pending).index tokens = front.length ∧ p.parseProgram = (⟨[]⟩, p) := by
  obtain ⟨front, last, behind, whole, ended, running, count⟩ := Token.exists_end tokens
  refine ⟨front, last, behind, whole, ended, running, List.suffix_rfl, ?_, ?_, ?_, ?_⟩
  · intro s on
    refine ⟨?_, on.exists_seen⟩
    rw [count]
    exact Nat.sub_le _ _
  · intro α r s on
    have lead := (r.run s).leads
    exact ⟨on.leads lead, Parse.Cursor.index_le_of_leads lead⟩
  · intro s on nonempty
    exact ⟨on.index_lt (Parse.statement_length_lt nonempty), Parse.Cursor.resume_statement nonempty⟩
  · intro n p
    have finished : p.pending = [] := ParserSession.again_pending _ n
    refine ⟨?_, ParserSession.parseProgram_of_finished finished⟩
    rw [finished, count]
    rfl

def strayBehindEnd : List Token :=
  [⟨some (.name "a"), ⟨1, 1⟩⟩, ⟨none, ⟨1, 2⟩⟩, ⟨some (.symbol .closeBrace), ⟨1, 3⟩⟩]

theorem cursor_of_strayBehindEnd :
    let s := Parse.Cursor.start [.name "a"]
    s.On strayBehindEnd ∧ s.index strayBehindEnd < (Parse.statement s).next.index strayBehindEnd := by
  obtain ⟨_, _, _, -, -, -, on, -, -, advances, -⟩ := cursor_disciplined strayBehindEnd
  exact ⟨on, (advances _ on (List.cons_ne_nil _ _)).1⟩

end ScriptFrontend
