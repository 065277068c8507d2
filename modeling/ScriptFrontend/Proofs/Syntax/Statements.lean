import ScriptFrontend.Parse.Statement

/-!
# An input, statement by statement

Reading an input is reading its first statement from a fresh start and then what is left behind it.
-/
namespace ScriptFrontend.Parse

theorem Cursor.resume_length_le (s t : Cursor) :
    (s.resume t).pending.length ≤ t.pending.length := by
  by_cases same : t.pending.length = s.pending.length
  · simp [resume, same]
  · simp [resume, same]

theorem Cursor.resume_start {ls rest : List Lexeme} (shorter : rest.length < ls.length) :
    (start ls).resume (start rest) = start rest := by
  simp [start, resume, Nat.ne_of_lt shorter]

/-- A statement read from a fresh start, seen from where the block stands. -/
def Reading.resumed (s : Cursor) {α : Type} (r : Reading (.start s.pending) α) : Reading s α :=
  ⟨r.value, s.resume r.next, Cursor.leads_resume r.leads⟩

@[simp] theorem Reading.resumed_value {s : Cursor} {α : Type} (r : Reading (.start s.pending) α) :
    (r.resumed s).value = r.value := rfl

@[simp] theorem Reading.resumed_next {s : Cursor} {α : Type} (r : Reading (.start s.pending) α) :
    (r.resumed s).next = s.resume r.next := rfl

theorem blockBody_closed {s : Cursor} (h : s.pending = [] ∨ s.sees .closeBrace) :
    blockBody s = .stay s [] := by
  rw [blockBody, dif_pos h]

theorem blockBody_statement {s : Cursor} (h : ¬(s.pending = [] ∨ s.sees .closeBrace)) :
    blockBody s = (Reading.resumed s (statement (.start s.pending))).bind fun first t _ =>
      (blockBody t).map fun others => first :: others := by
  rw [blockBody, dif_neg h]
  rfl

/-- What is left behind the first statement of an input. -/
def afterStatement (ls : List Lexeme) : List Lexeme :=
  ((Cursor.start ls).resume (statement (.start ls)).next).pending

theorem afterStatement_length_lt {ls : List Lexeme} (h : ls ≠ []) :
    (afterStatement ls).length < ls.length :=
  Cursor.resume_length_lt (s := .start ls) (statement (.start ls)).leads h

/-- A statement that ended before the end of what it started with ended where the next one starts. -/
theorem afterStatement_eq {ls rest : List Lexeme} (h : (statement (.start ls)).next.pending = rest)
    (shorter : rest.length < ls.length) : afterStatement ls = rest := by
  simp only [afterStatement, Cursor.resume, Cursor.start_pending, h]
  exact if_neg (by omega)

@[simp] theorem program_nil : program [] = ⟨[], [], []⟩ := by
  rw [program]
  rfl

theorem program_of_ne_nil {ls : List Lexeme} (h : ls ≠ []) :
    program ls =
      ⟨(statement (.start ls)).value :: (program (afterStatement ls)).statements,
        (statement (.start ls)).next.faults ++ (program (afterStatement ls)).faults,
        (program (afterStatement ls)).rest⟩ := by
  rw [program, dif_neg h]
  rfl

theorem statements_induction {motive : List Lexeme → Prop} (nil : motive [])
    (statement : ∀ ls, ls ≠ [] → motive (afterStatement ls) → motive ls) (ls : List Lexeme) :
    motive ls :=
  if empty : ls = [] then empty ▸ nil
  else
    have := afterStatement_length_lt empty
    statement ls empty (statements_induction nil statement (afterStatement ls))
termination_by ls.length

end ScriptFrontend.Parse
