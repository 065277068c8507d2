import ScriptFrontend.Proofs.Syntax.Acceptance
import ScriptFrontend.Proofs.Syntax.Progress
import ScriptFrontend.Proofs.Syntax.Yield

/-!
# What a tree holds stands in the text

However faulty an input is, the names, literals and operators of the tree stand in it, in the same
order, but for the substitutes for what could not be read. What each routine hands out is drawn from
the lexemes that it passes; parts that lie one behind the other are drawn from what lies one behind
the other.
-/
namespace ScriptFrontend

/-- The second yield is the first without some of the substitutes. -/
inductive Stripped : List Lexeme → List Lexeme → Prop where
  | nil : Stripped [] []
  | keep {y kept : List Lexeme} (l : Lexeme) : Stripped y kept → Stripped (l :: y) (l :: kept)
  | drop {y kept : List Lexeme} {l : Lexeme} :
      l ∈ [.integer 0, .name ""] → Stripped y kept → Stripped (l :: y) kept

theorem Stripped.append {x y kept more : List Lexeme} (h : Stripped x kept) (k : Stripped y more) :
    Stripped (x ++ y) (kept ++ more) := by
  induction h with
  | nil => exact k
  | keep l _ ih => exact .keep l ih
  | drop substitute _ ih => exact .drop substitute ih

/-- What is left of the yield without substitutes is part of what the lexemes yield. -/
def DrawnFrom (ls y : List Lexeme) : Prop :=
  ∃ kept, Stripped y kept ∧ kept.Sublist (Lexeme.yield ls)

namespace DrawnFrom
variable {a b ls x y : List Lexeme} {l : Lexeme}

theorem nil (ls : List Lexeme) : DrawnFrom ls [] :=
  ⟨[], .nil, List.nil_sublist _⟩

theorem content (h : l.isContent = true) : DrawnFrom [l] [l] := by
  refine ⟨[l], .keep l .nil, ?_⟩
  rw [Lexeme.yield_cons_content h]
  exact List.Sublist.refl _

theorem substitute (h : l ∈ [.integer 0, .name ""]) (ls : List Lexeme) : DrawnFrom ls [l] :=
  ⟨[], .drop h .nil, List.nil_sublist _⟩

theorem append (h : DrawnFrom a x) (k : DrawnFrom b y) : DrawnFrom (a ++ b) (x ++ y) := by
  obtain ⟨kept, stripped, part⟩ := h
  obtain ⟨more, stripped', part'⟩ := k
  refine ⟨kept ++ more, stripped.append stripped', ?_⟩
  rw [Lexeme.yield_append]
  exact part.append part'

theorem behind (h : DrawnFrom b y) (a : List Lexeme) : DrawnFrom (a ++ b) y :=
  (nil a).append h

theorem before (h : DrawnFrom a y) (b : List Lexeme) : DrawnFrom (a ++ b) y := by
  have whole := h.append (nil b)
  rwa [List.append_nil] at whole

theorem skip (h : DrawnFrom ls y) (l : Lexeme) : DrawnFrom (l :: ls) y := h.behind [l]

theorem cons (content : l.isContent = true) (h : DrawnFrom ls y) : DrawnFrom (l :: ls) (l :: y) :=
  (DrawnFrom.content content).append h

theorem placeholder (ls : List Lexeme) : DrawnFrom ls Expr.placeholder.yield :=
  substitute (by simp [Literal.lexeme]) ls

end DrawnFrom

namespace Parse

/-! What a reading passes -/

/-- The lexemes that a reading passes are related to what it hands out. -/
def Reading.Spans {s : Cursor} {α : Type} (D : List Lexeme → α → Prop) (r : Reading s α) : Prop :=
  ∃ ls, s.pending = ls ++ r.next.pending ∧ D ls r.value

namespace Reading.Spans
variable {s t : Cursor} {α β : Type} {D : List Lexeme → α → Prop} {E : List Lexeme → β → Prop}

theorem of_forall {r : Reading s α} (h : ∀ ls, D ls r.value) : r.Spans D := by
  obtain ⟨ls, cut⟩ := r.leads.suffix
  exact ⟨ls, cut.symm, h ls⟩

theorem stay {v : α} (h : D [] v) : (Reading.stay s v).Spans D := ⟨[], rfl, h⟩

theorem move {v : α} {l : Lexeme} {rest : List Lexeme} (hs : s.pending = l :: rest) (h : D [l] v)
    (lead : s.Leads (s.moveTo rest)) : (Reading.move v rest lead).Spans D := ⟨[l], hs, h⟩

theorem map {r : Reading s α} (hr : r.Spans D) (f : α → β) (h : ∀ ls v, D ls v → E ls (f v)) :
    (r.map f).Spans E := by
  obtain ⟨ls, cut, hv⟩ := hr
  exact ⟨ls, cut, h _ _ hv⟩

theorem mono {D' : List Lexeme → α → Prop} {r : Reading s α} (hr : r.Spans D)
    (h : ∀ ls v, D ls v → D' ls v) : r.Spans D' :=
  hr.map id h

theorem widen (front : List Lexeme) {r : Reading t β} (cut : s.pending = front ++ t.pending)
    (lead : s.Leads t) (hr : r.Spans fun ls v => E (front ++ ls) v) : (r.widen lead).Spans E := by
  obtain ⟨ls, cut', hv⟩ := hr
  exact ⟨front ++ ls, by simp [cut, cut'], hv⟩

theorem behind {l : Lexeme} {rest : List Lexeme} (hs : s.pending = l :: rest)
    (lead : s.Leads (s.moveTo rest)) {r : Reading (s.moveTo rest) β}
    (hr : r.Spans fun ls v => E (l :: ls) v) : (r.widen lead).Spans E :=
  widen (t := s.moveTo rest) [l] hs lead hr

theorem behind₂ {l m : Lexeme} {rest : List Lexeme} (hs : s.pending = l :: m :: rest)
    (lead : s.Leads (s.moveTo rest)) {r : Reading (s.moveTo rest) β}
    (hr : r.Spans fun ls v => E (l :: m :: ls) v) : (r.widen lead).Spans E :=
  widen (t := s.moveTo rest) [l, m] hs lead hr

theorem bind {r : Reading s α} {go : α → (t : Cursor) → s.Leads t → Reading t β} (hr : r.Spans D)
    (hg : ∀ front v t lead, D front v → (go v t lead).Spans fun ls w => E (front ++ ls) w) :
    (r.bind go).Spans E := by
  obtain ⟨front, cut, hv⟩ := hr
  exact widen front cut r.leads (hg front _ _ r.leads hv)

end Reading.Spans

open Reading

theorem Cursor.expect_spans (s : Cursor) (slot : SymbolSlot) : (s.expect slot).Spans fun _ _ => True :=
  .of_forall fun _ => trivial

theorem Cursor.expectName_drawn (s : Cursor) (slot : NameSlot) :
    (s.expectName slot).Spans fun ls word => DrawnFrom ls (yieldNames word.toList) := by
  unfold expectName
  split
  · rename_i word rest hs
    apply Spans.move hs
    exact DrawnFrom.content (l := .name word) rfl
  · exact .of_forall DrawnFrom.nil

theorem noOperand_drawn (s : Cursor) : (noOperand s).Spans fun ls e => DrawnFrom ls e.yield := by
  apply Spans.of_forall
  rw [noOperand_value]
  exact DrawnFrom.placeholder

mutual

theorem operand_drawn (s : Cursor) : (operand s).Spans fun ls e => DrawnFrom ls e.yield := by
  rw [operand]
  split
  · rename_i value rest hs
    apply Spans.move hs
    exact DrawnFrom.content (l := .integer value) rfl
  · rename_i value rest hs
    apply Spans.move hs
    exact DrawnFrom.content (l := .decimal value) rfl
  · rename_i content rest hs
    apply Spans.move hs
    exact DrawnFrom.content (l := .text content) rfl
  · rename_i callee rest hs
    have := Cursor.length_of_cons₂ hs
    apply Spans.behind₂ hs
    apply (argumentList_drawn (s.moveTo rest)).bind
    intro front es t lead given
    apply (t.expect_spans .closeArguments).map
    intro last found _
    exact .cons rfl ((given.before last).skip _)
  · rename_i word rest _ hs
    apply Spans.move hs
    exact DrawnFrom.content (l := .name word) rfl
  · rename_i rest hs
    have := Cursor.length_of_cons hs
    apply Spans.behind hs
    apply (expression_drawn (s.moveTo rest)).bind
    intro front e t lead inner
    apply (t.expect_spans .closeGroup).map
    intro last found _
    exact (inner.before last).skip _
  · rename_i rest hs
    have := Cursor.length_of_cons hs
    apply Spans.behind hs
    exact (operand_drawn (s.moveTo rest)).map _ fun ls e signed => .cons rfl signed
  · rename_i rest hs
    have := Cursor.length_of_cons hs
    apply Spans.behind hs
    exact (operand_drawn (s.moveTo rest)).map _ fun ls e signed => .cons rfl signed
  · exact noOperand_drawn s
termination_by 4 * s.pending.length

theorem chain_drawn (s : Cursor) : (chain s).Spans fun ls others => DrawnFrom ls (chainYield others) := by
  rw [chain]
  split
  · rename_i b rest hs
    split
    · rename_i op symbol
      have := Cursor.length_of_cons hs
      have operator : Lexeme.isContent (.symbol b) = true := by simp [Lexeme.isContent, symbol]
      apply Spans.behind hs
      apply (operand_drawn (s.moveTo rest)).bind
      intro front right t lead here
      have : t.pending.length ≤ rest.length := lead.length_le
      apply (chain_drawn t).map
      intro more others later
      rw [← BinaryOp.symbol_of_ofSymbol? symbol] at operator ⊢
      exact .cons operator (here.append later)
    · exact .stay (.nil [])
  · exact .stay (.nil [])
termination_by 4 * s.pending.length

theorem expression_drawn (s : Cursor) : (expression s).Spans fun ls e => DrawnFrom ls e.yield := by
  rw [expression]
  apply (operand_drawn s).bind
  intro front first t lead here
  have := lead.length_le
  apply (chain_drawn t).map
  intro more others later
  rw [assemble_yield]
  exact here.append later
termination_by 4 * s.pending.length + 1

theorem arguments_drawn (s : Cursor) :
    (arguments s).Spans fun ls es => DrawnFrom ls (Expr.yieldAll es) := by
  rw [arguments]
  apply (expression_drawn s).bind
  intro front first t lead here
  have := lead.length_le
  split
  · rename_i rest ht
    have := Cursor.length_of_cons ht
    apply Spans.behind ht
    exact (arguments_drawn (t.moveTo rest)).map _ fun more others later => here.append (later.skip _)
  · exact .stay (here.append (.nil []))
termination_by 4 * s.pending.length + 2

theorem argumentList_drawn (s : Cursor) :
    (argumentList s).Spans fun ls es => DrawnFrom ls (Expr.yieldAll es) := by
  rw [argumentList]
  split
  · exact .stay (.nil [])
  · exact arguments_drawn s
termination_by 4 * s.pending.length + 3

end

/-! Statements -/

theorem finish_spans (s : Cursor) (slot : SymbolSlot) (stmt : Stmt) :
    (finish s slot stmt).Spans fun _ t => t = stmt :=
  .of_forall fun _ => rfl

/-- An expression with the symbol that ends a statement, behind what names the statement. -/
theorem finished_drawn {front : List Lexeme} {head : List Lexeme} (s : Cursor) (slot : SymbolSlot)
    (build : Expr → Stmt) (named : DrawnFrom front head)
    (yields : ∀ e : Expr, (build e).yield = head ++ e.yield) :
    ((expression s).bind fun e t _ => finish t slot (build e)).Spans fun ls stmt =>
      DrawnFrom (front ++ ls) stmt.yield := by
  apply (expression_drawn s).bind
  intro middle e t lead value
  apply (finish_spans t slot (build e)).mono
  intro last stmt same
  rw [same, yields, ← List.append_assoc]
  exact (named.append value).before last

theorem declaration_drawn (s : Cursor) : (declaration s).Spans fun ls t => DrawnFrom ls t.yield := by
  unfold declaration
  apply (s.expectName_drawn .variableName).bind
  intro front word t lead named
  cases word with
  | none =>
    exact .stay ((DrawnFrom.substitute (by simp) _).append (.placeholder []))
  | some word =>
    apply (t.expect_spans .assignment).bind
    intro equals found u lead' _
    split
    · have named : DrawnFrom (front ++ equals) [.name word] := named.before equals
      simp only [← List.append_assoc]
      exact finished_drawn u .endOfDeclaration (.declaration word) named fun _ => rfl
    · exact .stay (named.append (.placeholder _))

theorem assignment_drawn (word : String) (s : Cursor) :
    (assignment word s).Spans fun ls t =>
      DrawnFrom (.name word :: .symbol .assign :: ls) t.yield := by
  have name : DrawnFrom [.name word] [.name word] := .content rfl
  have named : DrawnFrom [.name word, .symbol .assign] [.name word] := name.before [.symbol .assign]
  unfold assignment
  split
  · exact .of_forall fun ls => named.append (.placeholder ls)
  · exact finished_drawn s .endOfAssignment (.assignment word) named fun _ => rfl

theorem returned_drawn (s : Cursor) : (returned s).Spans fun ls t => DrawnFrom ls t.yield :=
  finished_drawn s .endOfReturn .returnValue (.nil []) fun _ => rfl

theorem evaluated_drawn (s : Cursor) : (evaluated s).Spans fun ls t => DrawnFrom ls t.yield :=
  finished_drawn s .endOfExpression .expression (.nil []) fun _ => rfl

theorem condition_drawn (c : Conditional) (s : Cursor) :
    (condition c s).Spans fun ls e => DrawnFrom ls (e.elim [] Expr.yield) := by
  unfold condition
  apply (s.expect_spans _).bind
  intro front opened t lead _
  split
  · apply (expression_drawn t).bind
    intro middle e u lead' value
    apply (u.expect_spans _).map
    intro last closed _
    split
    · exact (value.before last).behind front
    · exact .nil _
  · exact .stay (.nil _)

theorem moreParameters_drawn (s : Cursor) :
    (moreParameters s).Spans fun ls words => DrawnFrom ls (yieldNames words) := by
  rw [moreParameters]
  split
  · rename_i rest hs
    have := Cursor.length_of_cons hs
    apply Spans.behind hs
    apply ((s.moveTo rest).expectName_drawn .nextParameter).bind
    intro front word t lead named
    have : t.pending.length ≤ rest.length := lead.length_le
    apply (moreParameters_drawn t).map
    intro more others later
    rw [yieldNames, List.map_append]
    exact (named.append later).skip _
  · exact .stay (.nil [])
termination_by s.pending.length

theorem parameters_drawn (s : Cursor) :
    (parameters s).Spans fun ls words => DrawnFrom ls (yieldNames words) := by
  unfold parameters
  split
  · exact .stay (.nil [])
  · apply (s.expectName_drawn .firstParameter).bind
    intro front word t lead named
    apply (moreParameters_drawn t).map
    intro more others later
    rw [yieldNames, List.map_append]
    exact named.append later

/-- The loops over statements give up no lexeme of their own accord, so a statement passes the same
lexemes there. -/
theorem Reading.Spans.resumed {s : Cursor} {D : List Lexeme → Stmt → Prop} (nonempty : s.pending ≠ [])
    (h : (statement (.start s.pending)).Spans D) :
    ((statement (.start s.pending)).resumed s).Spans D := by
  obtain ⟨ls, cut, hv⟩ := h
  have place := Cursor.resume_statement nonempty
  exact ⟨ls, by rw [resumed_next, place]; exact cut, hv⟩

mutual

theorem statement_drawn (s : Cursor) : (statement s).Spans fun ls t => DrawnFrom ls t.yield := by
  rw [statement]
  split
  · rename_i rest hs
    exact .behind hs _ ((declaration_drawn _).mono fun _ _ drawn => drawn.skip _)
  · rename_i rest hs
    have := Cursor.length_of_cons hs
    exact .behind hs _ ((conditional_drawn (s.moveTo rest)).mono fun _ _ drawn => drawn.skip _)
  · rename_i rest hs
    have := Cursor.length_of_cons hs
    exact .behind hs _ ((loop_drawn (s.moveTo rest)).mono fun _ _ drawn => drawn.skip _)
  · rename_i rest hs
    have := Cursor.length_of_cons hs
    exact .behind hs _ ((function_drawn (s.moveTo rest)).mono fun _ _ drawn => drawn.skip _)
  · rename_i rest hs
    exact .behind hs _ ((returned_drawn _).mono fun _ _ drawn => drawn.skip _)
  · rename_i word rest hs
    exact .behind₂ hs _ (assignment_drawn word _)
  · exact .of_forall DrawnFrom.placeholder
  · exact evaluated_drawn s
termination_by 2 * s.pending.length

theorem conditional_drawn (s : Cursor) : (conditional s).Spans fun ls t => DrawnFrom ls t.yield := by
  rw [conditional]
  apply (condition_drawn .ifWord s).bind
  intro front e t lead value
  cases e with
  | none => exact .stay ((DrawnFrom.placeholder _).append (.nil []))
  | some e =>
    have := lead.length_le
    apply (block_drawn t).bind
    intro middle consequent u lead' body
    have := lead'.length_le
    apply (alternative_drawn e consequent u).mono
    intro ls stmt whole
    rw [← List.append_assoc]
    exact whole _ (value.append body)
termination_by 2 * s.pending.length + 1

theorem alternative_drawn (e : Expr) (consequent : List Stmt) (s : Cursor) :
    (alternative e consequent s).Spans fun ls t => ∀ front,
      DrawnFrom front (e.yield ++ Stmt.yieldAll consequent) → DrawnFrom (front ++ ls) t.yield := by
  rw [alternative]
  split
  · rename_i rest hs
    have := Cursor.length_of_cons₂ hs
    apply Spans.behind₂ hs
    apply (conditional_drawn (s.moveTo rest)).map
    intro ls inner other front before
    have drawn := before.append ((other.skip (.symbol .kwIf)).skip (.symbol .kwElse))
    simpa [Stmt.yield, Stmt.yieldAll] using drawn
  · rename_i rest _ hs
    have := Cursor.length_of_cons hs
    apply Spans.behind hs
    apply (block_drawn (s.moveTo rest)).map
    intro ls body other front before
    have drawn := before.append (other.skip (.symbol .kwElse))
    simpa [Stmt.yield] using drawn
  · exact .stay fun front before => before.before []
termination_by 2 * s.pending.length

theorem loop_drawn (s : Cursor) : (loop s).Spans fun ls t => DrawnFrom ls t.yield := by
  rw [loop]
  apply (condition_drawn .whileWord s).bind
  intro front e t lead value
  cases e with
  | none => exact .stay ((DrawnFrom.placeholder _).append (.nil []))
  | some e =>
    have := lead.length_le
    exact (block_drawn t).map _ fun ls body inner => value.append inner
termination_by 2 * s.pending.length + 1

theorem function_drawn (s : Cursor) : (function s).Spans fun ls t => DrawnFrom ls t.yield := by
  rw [function]
  apply (s.expectName_drawn .functionName).bind
  intro front word t ht named
  cases word with
  | none => exact .stay (.substitute (by simp) _)
  | some word =>
    apply (t.expect_spans .openParameters).bind
    intro opening opened u hu _
    dsimp only
    split
    · apply (parameters_drawn u).bind
      intro middle names v hv listed
      apply (v.expect_spans .closeParameters).bind
      intro closing closed w hw _
      split
      · have := (((ht.trans hu).trans hv).trans hw).length_le
        apply (block_drawn w).map
        intro ls body inner
        have drawn := ((named.before opening).append (listed.before closing)).append inner
        simpa [Stmt.yield, yieldNames] using drawn
      · apply Spans.stay
        have drawn := (named.before opening).append (listed.before closing)
        simpa [Stmt.yield, Stmt.yieldAll, yieldNames] using drawn
    · apply Spans.stay
      have drawn := named.before opening
      simpa [Stmt.yield, Stmt.yieldAll, yieldNames] using drawn
termination_by 2 * s.pending.length + 1

theorem block_drawn (s : Cursor) : (block s).Spans fun ls ss => DrawnFrom ls (Stmt.yieldAll ss) := by
  rw [block]
  split
  · rename_i rest hs
    have := Cursor.length_of_cons hs
    apply Spans.behind hs
    apply (blockBody_drawn (s.moveTo rest)).bind
    intro front body t lead inner
    apply (t.expect_spans .closeBlock).bind
    intro last closed u lead' _
    exact ⟨[], by split <;> rfl, by simpa using (inner.before last).skip _⟩
  · exact .of_forall DrawnFrom.nil
termination_by 2 * s.pending.length

theorem blockBody_drawn (s : Cursor) :
    (blockBody s).Spans fun ls ss => DrawnFrom ls (Stmt.yieldAll ss) := by
  by_cases closed : s.pending = [] ∨ s.sees .closeBrace
  · rw [blockBody_closed closed]
    exact .stay (.nil [])
  · have nonempty : s.pending ≠ [] := fun empty => closed (.inl empty)
    rw [blockBody_statement closed]
    have first := (statement_drawn (.start s.pending)).resumed nonempty
    have := Cursor.resume_length_lt (statement (.start s.pending)).leads nonempty
    obtain ⟨front, cut, here⟩ := first
    apply Spans.widen front cut
    exact (blockBody_drawn _).map _ fun more others later => here.append later
termination_by 2 * s.pending.length + 1

end

theorem program_drawn (ls : List Lexeme) :
    DrawnFrom ls (Stmt.yieldAll (program ls).statements) := by
  induction ls using statements_induction with
  | nil =>
    rw [program_nil]
    exact .nil []
  | statement ls nonempty later =>
    obtain ⟨front, cut, here⟩ := statement_drawn (.start ls)
    have place : afterStatement ls = (statement (.start ls)).next.pending :=
      Cursor.resume_statement (s := .start ls) nonempty
    rw [← place, Cursor.start_pending] at cut
    have whole := here.append later
    rw [← cut] at whole
    rw [program_of_ne_nil nonempty]
    exact whole

end Parse

/-- The names, literals and operators of the tree are those of the text, none invented, doubled or
moved, once the substitutes are left out; and without faults they are all of them. -/
theorem program_yield (tokens : List Token) (source : Option String) :
    (∃ kept, Stripped (parseTokens tokens source).program.yield kept ∧
        kept.Sublist (Lexeme.yield (Token.lexemes tokens))) ∧
      ((parseTokens tokens source).diagnostics = [] →
        (parseTokens tokens source).program.yield = Lexeme.yield (Token.lexemes tokens)) := by
  rw [parseTokens_program]
  refine ⟨Parse.program_drawn (Token.lexemes tokens), fun quiet => ?_⟩
  rw [parseTokens_diagnostics, List.map_eq_nil_iff] at quiet
  have phrase := (Parse.phrase_program_iff (Token.lexemes tokens) _).2 ⟨quiet, rfl⟩
  exact phrase.yield_eq

end ScriptFrontend
