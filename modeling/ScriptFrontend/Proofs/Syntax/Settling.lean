import ScriptFrontend.Proofs.Syntax.Completeness
import ScriptFrontend.Proofs.Syntax.Tracks

/-!
# Where a statement up to a semicolon comes to rest

A row without boundaries is followed by a semicolon. Before the semicolon a reader is inside the row
and calm, or it has met its only fault. The fault takes it right behind the semicolon, where the
routines that are still pending go on in panic. What they may do to the lexemes there is left to a
haven, a set of places that they do not leave; from that alone it follows where the statement ends.
-/
namespace ScriptFrontend.Parse
open Reading

/-- Rows that a skip to a boundary runs through. -/
def Plain (row : List Lexeme) : Prop :=
  ∀ l ∈ row, isBoundary l = false

theorem resynchronize_plain {row : List Lexeme} (plain : Plain row) (rest : List Lexeme) :
    resynchronize (row ++ .symbol .semicolon :: rest) = rest := by
  induction row with
  | nil => rfl
  | cons l row ih =>
    obtain ⟨here, later⟩ := List.forall_mem_cons.1 plain
    rw [List.cons_append, resynchronize]
    · rw [here]
      exact ih later
    · intro semicolon
      rw [semicolon] at here
      cases here

theorem Plain.tail {l : Lexeme} {row : List Lexeme} (plain : Plain (l :: row)) : Plain row :=
  (List.forall_mem_cons.1 plain).2

theorem Plain.nil : Plain [] :=
  List.forall_mem_nil _

theorem Plain.cons {l : Lexeme} {row : List Lexeme} (plain : Plain row) (here : isBoundary l = false) :
    Plain (l :: row) :=
  List.forall_mem_cons.2 ⟨here, plain⟩

theorem Plain.append {front row : List Lexeme} (h : Plain front) (k : Plain row) : Plain (front ++ row) :=
  List.forall_mem_append.2 ⟨h, k⟩

/-- A lexeme in front of the semicolon that is not the semicolon is in the row. -/
theorem exists_row_of_head? {row rest : List Lexeme} {l : Lexeme}
    (h : (row ++ .symbol .semicolon :: rest).head? = some l) (other : l ≠ .symbol .semicolon) :
    ∃ more, row = l :: more := by
  cases row with
  | nil =>
    obtain rfl : Lexeme.symbol .semicolon = l := Option.some.inj h
    exact absurd rfl other
  | cons m row =>
    obtain rfl : m = l := Option.some.inj h
    exact ⟨row, rfl⟩

/-- Inside an expression, so that pending routines go on behind the fault. -/
def FaultCause.isInner : FaultCause → Bool
  | noOperand | missingSymbol .closeArguments | missingSymbol .closeGroup => true
  | _ => false

/-- In panic because of its only fault. -/
def Cursor.Stranded (f : Fault) (P : List Lexeme → Prop) (s : Cursor) : Prop :=
  s.panicking = true ∧ s.faults = [f] ∧ P s.pending

/-- A reader that panics in `P` stays there as long as an expression goes on, and is in `Q` when the
statement is over. -/
structure Haven (rest : List Lexeme) (P Q : List Lexeme → Prop) : Prop where
  start : P rest
  comma : ∀ {p}, P p → p.head? ≠ some (.symbol .comma)
  chain : ∀ {s f}, Cursor.Stranded f P s → (Parse.chain s).next.Stranded f P
  close : ∀ {s f} {slot : SymbolSlot}, slot.symbol = .closeParen → Cursor.Stranded f P s →
    (s.expect slot).next.Stranded f P
  finish : ∀ {s f} {slot : SymbolSlot}, slot.symbol = .semicolon → Cursor.Stranded f P s →
    (s.expect slot).next.Stranded f Q

/-- The reading ends calm before the semicolon, or it has met its fault and ends in `P`. -/
def Reading.Settles (rest : List Lexeme) (P : List Lexeme → Prop) {s : Cursor} {α : Type}
    (r : Reading s α) : Prop :=
  (∃ row, Plain row ∧ r.next = .start (row ++ .symbol .semicolon :: rest)) ∨
    ∃ f, f.cause.isInner = true ∧ rest.length < f.rest.length ∧ r.next.Stranded f P

/-- The statement ends calm behind the semicolon, or it has met its fault. Then it ends in `Q`, and
right behind the semicolon unless the fault was inside an expression. -/
def Reading.Ends (rest : List Lexeme) (Q : List Lexeme → Prop) {s : Cursor} {α : Type}
    (r : Reading s α) : Prop :=
  r.next = .start rest ∨
    ∃ f, rest.length < f.rest.length ∧
      r.next.Stranded f fun p => if f.cause.isInner then Q p else p = rest

section Settling
variable {rest row : List Lexeme} {P Q : List Lexeme → Prop} {s t : Cursor} {α β : Type}

theorem length_lt_row (row rest : List Lexeme) :
    rest.length < (row ++ .symbol .semicolon :: rest).length := by
  rw [List.length_append, List.length_cons]
  omega

theorem Cursor.report_pending (plain : Plain row) (cause : FaultCause) :
    ((start (row ++ .symbol .semicolon :: rest)).report cause).pending = rest :=
  resynchronize_plain plain rest

theorem Cursor.report_stranded (plain : Plain row) (rest : List Lexeme) (cause : FaultCause) :
    ((start (row ++ .symbol .semicolon :: rest)).report cause).Stranded
      ⟨cause, row ++ .symbol .semicolon :: rest⟩ (· = rest) :=
  ⟨rfl, rfl, report_pending plain cause⟩

theorem Cursor.Stranded.mono (h : s.Stranded f P) (k : ∀ p, P p → Q p) : s.Stranded f Q :=
  ⟨h.1, h.2.1, k _ h.2.2⟩

/-- A routine that misses its symbol in panic notes nothing and skips on. -/
theorem Cursor.Stranded.expect_missing {slot : SymbolSlot} (h : s.Stranded f P)
    (missing : s.pending.head? ≠ some (.symbol slot.symbol)) (skipped : Q (resynchronize s.pending)) :
    (s.expect slot).next.Stranded f Q := by
  rw [Cursor.expect_missing missing]
  exact ⟨rfl, (if_pos h.1).trans h.2.1, skipped⟩

namespace Reading.Settles

theorem stay (plain : Plain row) (v : α) :
    (Reading.stay (.start (row ++ .symbol .semicolon :: rest)) v).Settles rest P :=
  .inl ⟨row, plain, rfl⟩

theorem move {l : Lexeme} (plain : Plain row) (v : α)
    (lead : (Cursor.start (l :: (row ++ .symbol .semicolon :: rest))).Leads _) :
    (Reading.move v (row ++ .symbol .semicolon :: rest) lead).Settles rest P :=
  .inl ⟨row, plain, rfl⟩

theorem fault (haven : Haven rest P Q) (plain : Plain row) {cause : FaultCause}
    (inner : cause.isInner = true) (v : α) :
    (Reading.fault (.start (row ++ .symbol .semicolon :: rest)) cause v).Settles rest P := by
  have stranded := Cursor.report_stranded plain rest cause
  exact .inr ⟨_, inner, length_lt_row row rest, stranded.mono fun p same => same ▸ haven.start⟩

theorem map {r : Reading s α} (h : r.Settles rest P) (f : α → β) : (r.map f).Settles rest P := h

theorem widen {r : Reading t α} (h : r.Settles rest P) (lead : s.Leads t) :
    (r.widen lead).Settles rest P := h

theorem bind {r : Reading s α} {go : α → (t : Cursor) → s.Leads t → Reading t β}
    (h : r.Settles rest P)
    (inside : ∀ v row lead, Plain row →
      (go v (.start (row ++ .symbol .semicolon :: rest)) lead).Settles rest P)
    (stranded : ∀ f v t lead, t.Stranded f P → (go v t lead).next.Stranded f P) :
    (r.bind go).Settles rest P := by
  obtain ⟨v, next, lead⟩ := r
  rcases h with ⟨row, plain, here⟩ | ⟨f, inner, early, panics⟩
  · dsimp only at here
    subst here
    exact inside v row lead plain
  · exact .inr ⟨f, inner, early, stranded f v next lead panics⟩

end Reading.Settles

theorem noOperand_settles (haven : Haven rest P Q) (plain : Plain row) :
    (noOperand (.start (row ++ .symbol .semicolon :: rest))).Settles rest P := by
  have moved := Nat.ne_of_lt (length_lt_row row rest)
  unfold noOperand
  rw [if_neg (by rwa [Cursor.report_pending plain])]
  exact .fault haven plain rfl _

theorem Cursor.expect_settles (haven : Haven rest P Q) (plain : Plain row) {slot : SymbolSlot}
    (closes : slot.symbol = .closeParen) (inner : (FaultCause.missingSymbol slot).isInner = true) :
    ((start (row ++ .symbol .semicolon :: rest)).expect slot).Settles rest P := by
  by_cases found : (row ++ .symbol .semicolon :: rest).head? = some (.symbol slot.symbol)
  · obtain ⟨row, rfl⟩ := exists_row_of_head? found (by simp [closes])
    rw [List.cons_append, expect_symbol]
    exact .move plain.tail _ _
  · rw [expect_other found]
    exact .fault haven plain inner _

mutual

theorem operand_settles (haven : Haven rest P Q) (row : List Lexeme) (plain : Plain row) :
    (operand (.start (row ++ .symbol .semicolon :: rest))).Settles rest P := by
  by_cases opens : ∀ l ∈ (row ++ .symbol .semicolon :: rest).head?, l.opensOperand = false
  · rw [operand_other opens]
    exact noOperand_settles haven plain
  cases cut : row with
  | nil => simp [cut, Lexeme.opensOperand] at opens
  | cons m next =>
    have shorter : row.length = next.length + 1 := congrArg List.length cut
    rw [cut] at plain opens
    have behind := plain.tail
    rw [List.cons_append]
    cases m with
    | integer value =>
      rw [operand_integer]
      exact .move behind _ _
    | decimal value =>
      rw [operand_decimal]
      exact .move behind _ _
    | text content =>
      rw [operand_text]
      exact .move behind _ _
    | name word =>
      by_cases call : (next ++ .symbol .semicolon :: rest).head? = some (.symbol .openParen)
      · obtain ⟨inner, cut⟩ := exists_row_of_head? call (by simp)
        have shorter : next.length = inner.length + 1 := congrArg List.length cut
        rw [cut] at behind ⊢
        rw [List.cons_append, operand_call]
        apply Settles.widen
        apply (argumentList_settles haven inner behind.tail).bind
        · intro es row _ plain
          exact (Cursor.expect_settles haven plain rfl rfl).map _
        · intro f es t _ panics
          exact haven.close rfl panics
      · rw [operand_name call]
        exact .move behind _ _
    | symbol b =>
      rcases Lexeme.symbol_of_opensOperand (by simpa using opens) with rfl | ⟨op, rfl⟩
      · rw [operand_group]
        apply Settles.widen
        apply (expression_settles haven next behind).bind
        · intro e row _ plain
          exact (Cursor.expect_settles haven plain rfl rfl).map _
        · intro f e t _ panics
          exact haven.close rfl panics
      · rw [operand_sign]
        exact ((operand_settles haven next behind).map _).widen _
termination_by 4 * row.length

theorem chain_settles (haven : Haven rest P Q) (row : List Lexeme) (plain : Plain row) :
    (chain (.start (row ++ .symbol .semicolon :: rest))).Settles rest P := by
  by_cases operator : ∃ op : BinaryOp,
      (row ++ .symbol .semicolon :: rest).head? = some (.symbol op.symbol)
  · obtain ⟨op, operator⟩ := operator
    obtain ⟨next, cut⟩ := exists_row_of_head? operator (by cases op <;> simp [BinaryOp.symbol])
    have shorter : row.length = next.length + 1 := congrArg List.length cut
    rw [cut] at plain ⊢
    rw [List.cons_append, chain_operator]
    apply Settles.widen
    apply (operand_settles haven next plain.tail).bind
    · intro right more lead plain
      have := length_le_of_leads lead
      exact (chain_settles haven more plain).map _
    · intro f right t _ panics
      exact haven.chain panics
  · rw [chain_other (not_exists.1 operator)]
    exact .stay plain _
termination_by 4 * row.length

theorem expression_settles (haven : Haven rest P Q) (row : List Lexeme) (plain : Plain row) :
    (expression (.start (row ++ .symbol .semicolon :: rest))).Settles rest P := by
  rw [expression]
  apply (operand_settles haven row plain).bind
  · intro first next lead plain
    have := length_le_of_leads lead
    exact (chain_settles haven next plain).map _
  · intro f first t _ panics
    exact haven.chain panics
termination_by 4 * row.length + 1

theorem arguments_settles (haven : Haven rest P Q) (row : List Lexeme) (plain : Plain row) :
    (arguments (.start (row ++ .symbol .semicolon :: rest))).Settles rest P := by
  rw [arguments]
  apply (expression_settles haven row plain).bind
  · intro first next lead plain
    have le := length_le_of_leads lead
    split
    · rename_i more separated
      rw [Cursor.start_pending] at separated
      obtain ⟨inner, cut⟩ := exists_row_of_head? (l := .symbol .comma) (by rw [separated]; rfl) (by simp)
      have shorter : next.length = inner.length + 1 := congrArg List.length cut
      rw [cut] at plain separated
      obtain rfl : inner ++ .symbol .semicolon :: rest = more := List.tail_eq_of_cons_eq separated
      exact ((arguments_settles haven inner plain.tail).map _).widen _
    · exact .stay plain _
  · intro f first t _ panics
    dsimp only
    split
    · rename_i more separated
      exact absurd (by rw [separated]; rfl) (haven.comma panics.2.2)
    · exact panics
termination_by 4 * row.length + 2

theorem argumentList_settles (haven : Haven rest P Q) (row : List Lexeme) (plain : Plain row) :
    (argumentList (.start (row ++ .symbol .semicolon :: rest))).Settles rest P := by
  rw [argumentList]
  split
  · exact .stay plain _
  · exact arguments_settles haven row plain
termination_by 4 * row.length + 3

end

/-! Statements -/

namespace Reading.Ends

theorem fault (plain : Plain row) {cause : FaultCause} (outer : cause.isInner = false) (v : α) :
    (Reading.fault (.start (row ++ .symbol .semicolon :: rest)) cause v).Ends rest Q := by
  have stranded := Cursor.report_stranded plain rest cause
  refine .inr ⟨_, length_lt_row row rest, stranded.mono fun p same => ?_⟩
  rw [outer]
  exact same

theorem widen {r : Reading t α} (h : r.Ends rest Q) (lead : s.Leads t) : (r.widen lead).Ends rest Q := h

theorem bind {r : Reading s α} {go : α → (t : Cursor) → s.Leads t → Reading t β} {v : α}
    (h : r.Gives v t) (k : ∀ lead, (go v t lead).Ends rest Q) : (r.bind go).Ends rest Q := by
  obtain ⟨rfl, rfl⟩ := h
  exact k r.leads

end Reading.Ends

theorem finish_ends (plain : Plain row) {slot : SymbolSlot} (last : slot.symbol = .semicolon)
    (outer : (FaultCause.missingSymbol slot).isInner = false) (stmt : Stmt) :
    (finish (.start (row ++ .symbol .semicolon :: rest)) slot stmt).Ends rest Q := by
  unfold finish
  cases row with
  | nil =>
    rw [List.nil_append, ← last, Cursor.expect_symbol]
    exact .inl rfl
  | cons l row =>
    have here := plain l List.mem_cons_self
    have missing : (l :: row ++ .symbol .semicolon :: rest).head? ≠ some (.symbol slot.symbol) := by
      intro found
      obtain rfl : l = .symbol slot.symbol := Option.some.inj found
      rw [last] at here
      cases here
    rw [Cursor.expect_other missing]
    exact Ends.fault plain outer false

theorem expression_ends (haven : Haven rest P Q) (plain : Plain row) {slot : SymbolSlot}
    (last : slot.symbol = .semicolon) (outer : (FaultCause.missingSymbol slot).isInner = false)
    (stmt : Expr → Stmt) :
    ((expression (.start (row ++ .symbol .semicolon :: rest))).bind fun e t _ =>
      finish t slot (stmt e)).Ends rest Q := by
  have settles := expression_settles haven row plain
  generalize expression _ = r at settles
  obtain ⟨e, next, lead⟩ := r
  rcases settles with ⟨row, plain, here⟩ | ⟨f, inner, early, panics⟩
  · dsimp only at here
    subst here
    exact finish_ends plain last outer (stmt e)
  · refine .inr ⟨f, early, (haven.finish last panics).mono fun p hp => ?_⟩
    rw [inner]
    exact hp

theorem evaluated_ends (haven : Haven rest P Q) (plain : Plain row) :
    (evaluated (.start (row ++ .symbol .semicolon :: rest))).Ends rest Q :=
  expression_ends haven plain rfl rfl _

theorem returned_ends (haven : Haven rest P Q) (plain : Plain row) :
    (returned (.start (row ++ .symbol .semicolon :: rest))).Ends rest Q :=
  expression_ends haven plain rfl rfl _

theorem assignment_ends (haven : Haven rest P Q) (word : String) (plain : Plain row) :
    (assignment word (.start (row ++ .symbol .semicolon :: rest))).Ends rest Q := by
  unfold assignment
  split
  · exact .fault plain rfl _
  · exact expression_ends haven plain rfl rfl _

theorem declaration_ends (haven : Haven rest P Q) (plain : Plain row) :
    (declaration (.start (row ++ .symbol .semicolon :: rest))).Ends rest Q := by
  unfold declaration
  by_cases named : ∃ word, (row ++ .symbol .semicolon :: rest).head? = some (.name word)
  · obtain ⟨word, named⟩ := named
    obtain ⟨row, rfl⟩ := exists_row_of_head? named (by simp)
    have behind := plain.tail
    apply Ends.bind (Cursor.expectName_gives .variableName word _)
    intro _
    by_cases assigns : (row ++ .symbol .semicolon :: rest).head? = some (.symbol .assign)
    · obtain ⟨row, rfl⟩ := exists_row_of_head? assigns (by simp)
      apply Ends.bind (Cursor.expect_gives .assignment _)
      intro _
      exact expression_ends haven behind.tail rfl rfl (Stmt.declaration word)
    · dsimp only
      rw [Cursor.expect_other assigns]
      exact Ends.fault behind rfl (Stmt.declaration word .placeholder)
  · rw [Cursor.expectName_other (not_exists.1 named)]
    exact Ends.fault plain rfl (Stmt.declaration "" .placeholder)

theorem statement_ends (haven : Haven rest P Q) (plain : Plain row) :
    (statement (.start (row ++ .symbol .semicolon :: rest))).Ends rest Q := by
  by_cases stray : (row ++ .symbol .semicolon :: rest).head? = some (.symbol .kwElse)
  · obtain ⟨row, rfl⟩ := exists_row_of_head? stray (by simp)
    rw [List.cons_append, statement_strayElse, ← List.cons_append]
    exact .fault plain rfl _
  by_cases assigns : ∃ word more, row ++ .symbol .semicolon :: rest = .name word :: .symbol .assign :: more
  · obtain ⟨word, more, cut⟩ := assigns
    obtain ⟨row, rfl⟩ := exists_row_of_head? (l := .name word) (by rw [cut]; rfl) (by simp)
    rw [List.cons_append] at cut
    have next := List.tail_eq_of_cons_eq cut
    obtain ⟨row, rfl⟩ := exists_row_of_head? (l := .symbol .assign) (by rw [next]; rfl) (by simp)
    rw [List.cons_append, List.cons_append, statement_assignment]
    exact (assignment_ends haven word plain.tail.tail).widen _
  · rw [statement_other]
    · exact evaluated_ends haven plain
    · intro l head
      cases row with
      | nil =>
        obtain rfl : Lexeme.symbol .semicolon = l := Option.some.inj head
        rfl
      | cons m row =>
        obtain rfl : m = l := Option.some.inj head
        have here := plain m List.mem_cons_self
        cases m with
        | symbol b => cases b <;> first | rfl | exact absurd rfl stray | cases here
        | _ => rfl
    · intro word more cut
      exact assigns ⟨word, more, cut⟩

end Settling
end ScriptFrontend.Parse
