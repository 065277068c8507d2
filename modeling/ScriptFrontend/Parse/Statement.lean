import ScriptFrontend.Parse.Expression

/-!
Reading statements. A routine named after a keyword starts behind it; a name directly followed by
`=` starts an assignment. A statement that meets a fault ends where the skip to a boundary
ended, with substitutes for what it lacks. Every statement starts calm; a block that was closed is
calm again, so a fault inside does not hide one behind it.
-/
namespace ScriptFrontend.Parse

def finish (s : Cursor) (slot : SymbolSlot) (stmt : Stmt) : Reading s Stmt :=
  (s.expect slot).map fun _ => stmt

def declaration (s : Cursor) : Reading s Stmt :=
  (s.expectName .variableName).bind fun word t _ =>
  match word with
  | none => .stay t (.declaration "" .placeholder)
  | some word =>
    (t.expect .assignment).bind fun found u _ =>
    if found then (expression u).bind fun e v _ => finish v .endOfDeclaration (.declaration word e)
    else .stay u (.declaration word .placeholder)

def assignment (word : String) (s : Cursor) : Reading s Stmt :=
  if s.sees .semicolon then .fault s .noValue (.assignment word .placeholder)
  else (expression s).bind fun e t _ => finish t .endOfAssignment (.assignment word e)

def returned (s : Cursor) : Reading s Stmt :=
  (expression s).bind fun e t _ => finish t .endOfReturn (.returnValue e)

def evaluated (s : Cursor) : Reading s Stmt :=
  (expression s).bind fun e t _ => finish t .endOfExpression (.expression e)

/-- A condition in parentheses; none as soon as a parenthesis is missing. -/
def condition (c : Conditional) (s : Cursor) : Reading s (Option Expr) :=
  (s.expect (.openCondition c)).bind fun opened t _ =>
  if opened then
    (expression t).bind fun e u _ =>
    (u.expect (.closeCondition c)).map fun closed => if closed then some e else none
  else .stay t none

/-- The names behind commas. One that is missing is noted, and the list goes on at the next comma. -/
def moreParameters (s : Cursor) : Reading s (List String) :=
  match h : s.pending with
  | .symbol .comma :: rest =>
    have := Cursor.length_of_cons h
    .widen (Cursor.leads_of_cons h) <|
      ((s.moveTo rest).expectName .nextParameter).bind fun word t ht =>
      have : t.pending.length ≤ rest.length := ht.length_le
      (moreParameters t).map fun others => word.toList ++ others
  | _ => .stay s []
termination_by s.pending.length

def parameters (s : Cursor) : Reading s (List String) :=
  if s.sees .closeParen then .stay s []
  else
    (s.expectName .firstParameter).bind fun word t _ =>
    (moreParameters t).map fun others => word.toList ++ others

namespace Cursor

/-- The cursor behind a statement that was read from a fresh start. A statement that read nothing
would give up one lexeme. -/
def resume (s t : Cursor) : Cursor :=
  ⟨if t.pending.length = s.pending.length then s.pending.tail else t.pending,
    t.panicking, s.faults ++ t.faults, fun h => by simp [t.noted h]⟩

theorem leads_resume {s t : Cursor} (h : (start s.pending).Leads t) : s.Leads (s.resume t) := by
  obtain ⟨later, faults, trail⟩ := h
  refine ⟨later, by simp [resume, faults], ?_⟩
  dsimp only [resume]
  split
  case isTrue same =>
    have stayed : t.pending = s.pending := trail.suffix.eq_of_length same
    exact trail.below (stayed ▸ List.tail_suffix _)
  case isFalse => exact trail

theorem resume_length_lt {s t : Cursor} (h : (start s.pending).Leads t) (hs : s.pending ≠ []) :
    (s.resume t).pending.length < s.pending.length := by
  have le : t.pending.length ≤ s.pending.length := h.length_le
  have := List.length_pos_iff.2 hs
  dsimp only [resume]
  split
  · rw [List.length_tail]
    omega
  · omega

end Cursor

mutual

def statement (s : Cursor) : Reading s Stmt :=
  match h : s.pending with
  | .symbol .kwVar :: rest => .widen (Cursor.leads_of_cons h) (declaration (s.moveTo rest))
  | .symbol .kwIf :: rest =>
    have := Cursor.length_of_cons h
    .widen (Cursor.leads_of_cons h) (conditional (s.moveTo rest))
  | .symbol .kwWhile :: rest =>
    have := Cursor.length_of_cons h
    .widen (Cursor.leads_of_cons h) (loop (s.moveTo rest))
  | .symbol .kwDef :: rest =>
    have := Cursor.length_of_cons h
    .widen (Cursor.leads_of_cons h) (function (s.moveTo rest))
  | .symbol .kwReturn :: rest => .widen (Cursor.leads_of_cons h) (returned (s.moveTo rest))
  | .name word :: .symbol .assign :: rest =>
    .widen (Cursor.leads_of_cons₂ h) (assignment word (s.moveTo rest))
  | .symbol .kwElse :: _ => .fault s .strayElse (.expression .placeholder)
  | _ => evaluated s
termination_by 2 * s.pending.length

def conditional (s : Cursor) : Reading s Stmt :=
  (condition .ifWord s).bind fun e t h =>
  match e with
  | none => .stay t (.ifThen .placeholder [])
  | some e =>
    have := h.length_le
    (block t).bind fun consequent u hu =>
    have := hu.length_le
    alternative e consequent u
termination_by 2 * s.pending.length + 1

/-- Behind the block of a conditional. An alternative is a block or a further conditional. -/
def alternative (e : Expr) (consequent : List Stmt) (s : Cursor) : Reading s Stmt :=
  match h : s.pending with
  | .symbol .kwElse :: .symbol .kwIf :: rest =>
    have := Cursor.length_of_cons₂ h
    .widen (Cursor.leads_of_cons₂ h) <|
      (conditional (s.moveTo rest)).map fun inner => .ifThenElse e consequent [inner]
  | .symbol .kwElse :: rest =>
    have := Cursor.length_of_cons h
    .widen (Cursor.leads_of_cons h) <|
      (block (s.moveTo rest)).map fun other => .ifThenElse e consequent other
  | _ => .stay s (.ifThen e consequent)
termination_by 2 * s.pending.length

def loop (s : Cursor) : Reading s Stmt :=
  (condition .whileWord s).bind fun e t h =>
  match e with
  | none => .stay t (.whileLoop .placeholder [])
  | some e =>
    have := h.length_le
    (block t).map fun body => .whileLoop e body
termination_by 2 * s.pending.length + 1

def function (s : Cursor) : Reading s Stmt :=
  (s.expectName .functionName).bind fun word t ht =>
  match word with
  | none => .stay t (.function "" [] [])
  | some word =>
    (t.expect .openParameters).bind fun opened u hu =>
    if opened then
      (parameters u).bind fun names v hv =>
      (v.expect .closeParameters).bind fun closed w hw =>
      if closed then
        have := (((ht.trans hu).trans hv).trans hw).length_le
        (block w).map fun body => .function word names body
      else .stay w (.function word names [])
    else .stay u (.function word [] [])
termination_by 2 * s.pending.length + 1

/-- Statements in braces. Without the opening brace the block is empty. -/
def block (s : Cursor) : Reading s (List Stmt) :=
  match h : s.pending with
  | .symbol .openBrace :: rest =>
    have := Cursor.length_of_cons h
    .widen (Cursor.leads_of_cons h) <|
      (blockBody (s.moveTo rest)).bind fun body t _ =>
      (t.expect .closeBlock).bind fun closed u _ =>
      ⟨body, if closed then u.calm else u, by
        split
        · exact (Cursor.Leads.refl u).calm
        · exact .refl u⟩
  | _ => .fault s .noBlock []
termination_by 2 * s.pending.length

def blockBody (s : Cursor) : Reading s (List Stmt) :=
  if h : s.pending = [] ∨ s.sees .closeBrace then .stay s []
  else
    let first := statement (.start s.pending)
    have := Cursor.resume_length_lt (s := s) first.leads fun empty => h (.inl empty)
    .widen (Cursor.leads_resume first.leads) <|
      (blockBody (s.resume first.next)).map fun others => first.value :: others
termination_by 2 * s.pending.length + 1

end

structure ProgramReading where
  statements : List Stmt
  faults : List Fault
  rest : List Lexeme

def program (pending : List Lexeme) : ProgramReading :=
  if h : pending = [] then ⟨[], [], pending⟩
  else
    let first := statement (.start pending)
    have := Cursor.resume_length_lt (s := .start pending) first.leads h
    let others := program ((Cursor.start pending).resume first.next).pending
    ⟨first.value :: others.statements, first.next.faults ++ others.faults, others.rest⟩
termination_by pending.length

end ScriptFrontend.Parse
