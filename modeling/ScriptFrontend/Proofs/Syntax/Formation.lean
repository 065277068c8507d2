import ScriptFrontend.Proofs.Lexical.Ascending
import ScriptFrontend.Proofs.Syntax.Follows
import ScriptFrontend.Proofs.Syntax.Places
import ScriptFrontend.Proofs.Tree.WellFormed
import ScriptFrontend.Proofs.Writing.Layout

/-!
# Reading gives well-formed trees

The scanner makes only lexemes whose values are well formed. Whatever a routine hands out is well
formed if the lexemes in front of it are, however faulty they are as a program; where it hands out a
substitute for a name, it has noted a fault, or one was noted before.
-/
namespace ScriptFrontend

/-! Lexemes -/

def Lexeme.WellFormed : Lexeme → Prop
  | symbol _ => True
  | name word => IsName word
  | integer value => (Literal.integer value).WellFormed
  | decimal value => (Literal.decimal value).WellFormed
  | text content => (Literal.text content).WellFormed

namespace Scanning
variable {word text : List Char} {l : Lexeme} {d : Division}

theorem Spells.wellFormed (h : Spells word l) : l.WellFormed := by
  cases h with
  | text plain =>
    change '"' ∉ (String.ofList _).toList
    rwa [String.toList_ofList]
  | integer _ _ => exact Int.natCast_nonneg _
  | decimal _ _ _ => exact ⟨Decimal.floatOfDigits_nonneg _ _, Decimal.floatOfDigits_isNaN _ _⟩
  | @name c tail start part fresh =>
    refine ⟨c, tail, String.toList_ofList, start, part, fun k hk same => fresh k hk ?_⟩
    rw [same, String.toList_ofList]
  | symbol s => trivial

theorem Divides.spelled (h : Divides text d) : ∀ c ∈ d.cuts, Spells c.word c.lexeme := by
  induction h with
  | stop => exact List.forall_mem_nil _
  | cut _ _ longest _ ih => exact List.forall_mem_cons.2 ⟨longest.2.1, ih⟩

theorem wellFormed_of_tokenize {source : String} {tokens : List Token}
    (accepted : tokenize source = .ok tokens) : ∀ l ∈ Token.lexemes tokens, l.WellFormed := by
  obtain ⟨d, divides, -, rfl⟩ := exists_covering accepted
  rw [Token.lexemes_tokensOf]
  intro l member
  obtain ⟨c, cut, rfl⟩ := List.mem_map.1 member
  exact (divides.spelled c cut).wellFormed

end Scanning

namespace Parse

/-! Operations -/

theorem fuse_closed {P : Expr → Prop} (closed : ∀ op a b, P a → P b → P (.binary op a b)) (l : Level)
    {first : Expr} {others : List (BinaryOp × Expr)} (hf : P first) (ho : ∀ x ∈ others, P x.2) :
    P (fuse l first others).1 ∧ ∀ x ∈ (fuse l first others).2, P x.2 := by
  induction others generalizing first with
  | nil => exact ⟨hf, ho⟩
  | cons x others ih =>
    obtain ⟨op, e⟩ := x
    obtain ⟨he, later⟩ := List.forall_mem_cons.1 ho
    by_cases same : op.level = l
    · rw [fuse_cons_same same]
      exact ih (closed op first e hf he) later
    · obtain ⟨inner, behind⟩ := ih he later
      rw [fuse_cons_other same]
      exact ⟨hf, List.forall_mem_cons.2 ⟨inner, behind⟩⟩

/-- Joining operands adds operations and nothing else. -/
theorem assemble_closed {P : Expr → Prop} (closed : ∀ op a b, P a → P b → P (.binary op a b))
    {first : Expr} {others : List (BinaryOp × Expr)} (hf : P first) (ho : ∀ x ∈ others, P x.2) :
    P (assemble first others) := by
  suffices ∀ r, P (fuseTo r first others).1 ∧ ∀ x ∈ (fuseTo r first others).2, P x.2 from
    (this (some .disjunction)).1
  intro r
  induction r using Level.ascend with
  | primary => exact ⟨hf, ho⟩
  | level l ih =>
    rw [fuseTo_some]
    exact fuse_closed closed l ih.1 ih.2

/-! Readings -/

/-- What is handed out is right for the cursor behind it. -/
def Reading.Meets {s : Cursor} {α : Type} (D : Cursor → α → Prop) (r : Reading s α) : Prop :=
  D r.next r.value

namespace Reading.Meets
variable {s t : Cursor} {α β : Type} {D : Cursor → α → Prop} {E : Cursor → β → Prop}

theorem map {r : Reading s α} (hr : r.Meets D) {f : α → β} (h : ∀ t v, D t v → E t (f v)) :
    (r.map f).Meets E := h _ _ hr

theorem widen {r : Reading t β} (hr : r.Meets E) (lead : s.Leads t) : (r.widen lead).Meets E := hr

theorem bind {r : Reading s α} {go : α → (t : Cursor) → s.Leads t → Reading t β} (hr : r.Meets D)
    (hg : ∀ v t lead, D t v → (go v t lead).Meets E) : (r.bind go).Meets E :=
  hg _ _ r.leads hr

end Reading.Meets

open Reading

/-- Every lexeme to be read has a well-formed value. -/
def Cursor.Sound (s : Cursor) : Prop := ∀ l ∈ s.pending, l.WellFormed

section Expressions
variable {s t : Cursor}

theorem Cursor.Sound.of_leads (h : s.Sound) (lead : s.Leads t) : t.Sound :=
  fun l member => h l (lead.suffix.subset member)

theorem Cursor.Sound.head (h : s.Sound) {l : Lexeme} {rest : List Lexeme} (hs : s.pending = l :: rest) :
    l.WellFormed := h l (hs ▸ List.mem_cons_self)

theorem Cursor.Sound.tail (h : s.Sound) {l : Lexeme} {rest : List Lexeme} (hs : s.pending = l :: rest) :
    (s.moveTo rest).Sound := h.of_leads (leads_of_cons hs)

theorem Cursor.Sound.tail₂ (h : s.Sound) {l m : Lexeme} {rest : List Lexeme}
    (hs : s.pending = l :: m :: rest) : (s.moveTo rest).Sound := h.of_leads (leads_of_cons₂ hs)

theorem expect_meets (s : Cursor) (slot : SymbolSlot) : (s.expect slot).Meets fun _ _ => True := trivial

mutual

theorem operand_wellFormed (s : Cursor) (h : s.Sound) :
    (operand s).Meets fun _ e => e.WellFormed := by
  rw [operand]
  split
  · rename_i hs
    exact h.head hs
  · rename_i hs
    exact h.head hs
  · rename_i hs
    exact h.head hs
  · rename_i callee rest hs
    have := Cursor.length_of_cons₂ hs
    apply Meets.widen
    apply (argumentList_wellFormed (s.moveTo rest) (h.tail₂ hs)).bind
    intro es t lead given
    exact (expect_meets t .closeArguments).map fun _ _ _ => ⟨h.head hs, given⟩
  · rename_i hs
    exact h.head hs
  · rename_i rest hs
    have := Cursor.length_of_cons hs
    apply Meets.widen
    apply (expression_wellFormed (s.moveTo rest) (h.tail hs)).bind
    intro e t lead inner
    exact (expect_meets t .closeGroup).map fun _ _ _ => inner
  · rename_i rest hs
    have := Cursor.length_of_cons hs
    exact (operand_wellFormed (s.moveTo rest) (h.tail hs)).map fun _ _ signed => signed
  · rename_i rest hs
    have := Cursor.length_of_cons hs
    exact (operand_wellFormed (s.moveTo rest) (h.tail hs)).map fun _ _ signed => signed
  · change Expr.WellFormed (noOperand s).value
    rw [noOperand_value]
    exact Expr.placeholder_wellFormed
termination_by 4 * s.pending.length

theorem chain_wellFormed (s : Cursor) (h : s.Sound) :
    (chain s).Meets fun _ others => ∀ x ∈ others, x.2.WellFormed := by
  rw [chain]
  split
  · rename_i b rest hs
    split
    · have := Cursor.length_of_cons hs
      apply Meets.widen
      apply (operand_wellFormed (s.moveTo rest) (h.tail hs)).bind
      intro right t lead here
      have : t.pending.length ≤ rest.length := lead.length_le
      exact (chain_wellFormed t ((h.tail hs).of_leads lead)).map fun _ _ later =>
        List.forall_mem_cons.2 ⟨here, later⟩
    · exact List.forall_mem_nil _
  · exact List.forall_mem_nil _
termination_by 4 * s.pending.length

theorem expression_wellFormed (s : Cursor) (h : s.Sound) :
    (expression s).Meets fun _ e => e.WellFormed := by
  rw [expression]
  apply (operand_wellFormed s h).bind
  intro first t lead here
  have := lead.length_le
  exact (chain_wellFormed t (h.of_leads lead)).map fun _ _ later =>
    assemble_closed (fun _ _ _ left right => ⟨left, right⟩) here later
termination_by 4 * s.pending.length + 1

theorem arguments_wellFormed (s : Cursor) (h : s.Sound) :
    (arguments s).Meets fun _ es => Expr.AllWellFormed es := by
  rw [arguments]
  apply (expression_wellFormed s h).bind
  intro first t lead here
  have := lead.length_le
  split
  · rename_i rest ht
    have := Cursor.length_of_cons ht
    apply Meets.widen
    exact (arguments_wellFormed (t.moveTo rest) ((h.of_leads lead).tail ht)).map
      fun _ _ later => ⟨here, later⟩
  · exact ⟨here, trivial⟩
termination_by 4 * s.pending.length + 2

theorem argumentList_wellFormed (s : Cursor) (h : s.Sound) :
    (argumentList s).Meets fun _ es => Expr.AllWellFormed es := by
  rw [argumentList]
  split
  · trivial
  · exact arguments_wellFormed s h
termination_by 4 * s.pending.length + 3

end

/-! Statements -/

/-- A name that is missing was noted. -/
theorem expectName_wellFormed (h : s.Sound) (slot : NameSlot) :
    (s.expectName slot).Meets fun t word => (∀ w ∈ word, IsName w) ∧ (word = none → t.faults ≠ []) := by
  unfold Cursor.expectName
  split
  · rename_i word rest hs
    refine ⟨fun w found => ?_, nofun⟩
    cases found
    exact h.head hs
  · exact ⟨nofun, fun _ => Cursor.report_faults_ne_nil _ _⟩

theorem finished_wellFormed (h : s.Sound) (slot : SymbolSlot) {build : Expr → Stmt}
    (named : ∀ faulty e, e.WellFormed → (build e).WellFormed faulty) :
    ((expression s).bind fun e t _ => finish t slot (build e)).Meets
      fun t stmt => stmt.WellFormed (t.faults ≠ []) := by
  apply (expression_wellFormed s h).bind
  intro e t lead value
  exact (expect_meets t slot).map fun _ _ _ => named _ e value

theorem declaration_wellFormed (h : s.Sound) :
    (declaration s).Meets fun t stmt => stmt.WellFormed (t.faults ≠ []) := by
  unfold declaration
  apply (expectName_wellFormed h .variableName).bind
  rintro word t lead ⟨named, missing⟩
  cases word with
  | none => exact .inr ⟨missing rfl, rfl, rfl⟩
  | some word =>
    apply (expect_meets t .assignment).bind
    intro found u lead' _
    split
    · exact finished_wellFormed ((h.of_leads lead).of_leads lead') .endOfDeclaration
        fun _ _ value => .inl ⟨named word rfl, value⟩
    · exact .inl ⟨named word rfl, Expr.placeholder_wellFormed⟩

theorem assignment_wellFormed {word : String} (named : IsName word) (h : s.Sound) :
    (assignment word s).Meets fun t stmt => stmt.WellFormed (t.faults ≠ []) := by
  unfold assignment
  split
  · exact ⟨named, Expr.placeholder_wellFormed⟩
  · exact finished_wellFormed h .endOfAssignment fun _ _ value => ⟨named, value⟩

theorem condition_wellFormed (c : Conditional) (h : s.Sound) :
    (condition c s).Meets fun _ e => ∀ v ∈ e, Expr.WellFormed v := by
  unfold condition
  apply (expect_meets s _).bind
  intro opened t lead _
  split
  · apply (expression_wellFormed t (h.of_leads lead)).bind
    intro e u lead' value
    apply (expect_meets u _).map
    intro _ closed _ v found
    split at found
    · cases found
      exact value
    · cases found
  · exact nofun

theorem moreParameters_wellFormed (s : Cursor) (h : s.Sound) :
    (moreParameters s).Meets fun _ names => ∀ name ∈ names, IsName name := by
  rw [moreParameters]
  split
  · rename_i rest hs
    have := Cursor.length_of_cons hs
    apply Meets.widen
    apply (expectName_wellFormed (h.tail hs) .nextParameter).bind
    rintro word t lead ⟨named, -⟩
    have : t.pending.length ≤ rest.length := lead.length_le
    apply (moreParameters_wellFormed t ((h.tail hs).of_leads lead)).map
    intro _ others later
    exact List.forall_mem_append.2 ⟨fun name member => named name (Option.mem_toList.1 member), later⟩
  · exact List.forall_mem_nil _
termination_by s.pending.length

theorem parameters_wellFormed (h : s.Sound) :
    (parameters s).Meets fun _ names => ∀ name ∈ names, IsName name := by
  unfold parameters
  split
  · exact List.forall_mem_nil _
  · apply (expectName_wellFormed h .firstParameter).bind
    rintro word t lead ⟨named, -⟩
    apply (moreParameters_wellFormed t (h.of_leads lead)).map
    intro _ others later
    exact List.forall_mem_append.2 ⟨fun name member => named name (Option.mem_toList.1 member), later⟩

end Expressions

theorem AllWellFormed.of_leads {s t : Cursor} {ss : List Stmt} (lead : s.Leads t)
    (h : Stmt.AllWellFormed (s.faults ≠ []) ss) : Stmt.AllWellFormed (t.faults ≠ []) ss :=
  Stmt.AllWellFormed.mono lead.faults_ne_nil ss h

mutual

theorem statement_wellFormed (s : Cursor) (h : s.Sound) :
    (statement s).Meets fun t stmt => stmt.WellFormed (t.faults ≠ []) := by
  rw [statement]
  split
  · rename_i rest hs
    exact declaration_wellFormed (h.tail hs)
  · rename_i rest hs
    have := Cursor.length_of_cons hs
    exact conditional_wellFormed (s.moveTo rest) (h.tail hs)
  · rename_i rest hs
    have := Cursor.length_of_cons hs
    exact loop_wellFormed (s.moveTo rest) (h.tail hs)
  · rename_i rest hs
    have := Cursor.length_of_cons hs
    exact function_wellFormed (s.moveTo rest) (h.tail hs)
  · rename_i rest hs
    exact finished_wellFormed (h.tail hs) .endOfReturn fun _ _ value => value
  · rename_i word rest hs
    exact assignment_wellFormed (h.head hs) (h.tail₂ hs)
  · exact Expr.placeholder_wellFormed
  · exact finished_wellFormed h .endOfExpression fun _ _ value => value
termination_by 2 * s.pending.length

theorem conditional_wellFormed (s : Cursor) (h : s.Sound) :
    (conditional s).Meets fun t stmt => stmt.WellFormed (t.faults ≠ []) := by
  rw [conditional]
  apply (condition_wellFormed .ifWord h).bind
  intro e t lead value
  cases e with
  | none => exact ⟨Expr.placeholder_wellFormed, trivial⟩
  | some e =>
    have := lead.length_le
    apply (block_wellFormed t (h.of_leads lead)).bind
    intro consequent u lead' body
    have := lead'.length_le
    exact alternative_wellFormed e consequent u ((h.of_leads lead).of_leads lead') (value e rfl)
      (AllWellFormed.of_leads (alternative e consequent u).leads body)
termination_by 2 * s.pending.length + 1

theorem alternative_wellFormed (e : Expr) (consequent : List Stmt) (s : Cursor) (h : s.Sound)
    (value : e.WellFormed) :
    (alternative e consequent s).Meets fun t stmt =>
      Stmt.AllWellFormed (t.faults ≠ []) consequent → stmt.WellFormed (t.faults ≠ []) := by
  rw [alternative]
  split
  · rename_i rest hs
    have := Cursor.length_of_cons₂ hs
    apply Meets.widen
    exact (conditional_wellFormed (s.moveTo rest) (h.tail₂ hs)).map
      fun _ _ inner body => ⟨value, body, inner, trivial⟩
  · rename_i rest _ hs
    have := Cursor.length_of_cons hs
    apply Meets.widen
    exact (block_wellFormed (s.moveTo rest) (h.tail hs)).map fun _ _ other body => ⟨value, body, other⟩
  · exact fun body => ⟨value, body⟩
termination_by 2 * s.pending.length

theorem loop_wellFormed (s : Cursor) (h : s.Sound) :
    (loop s).Meets fun t stmt => stmt.WellFormed (t.faults ≠ []) := by
  rw [loop]
  apply (condition_wellFormed .whileWord h).bind
  intro e t lead value
  cases e with
  | none => exact ⟨Expr.placeholder_wellFormed, trivial⟩
  | some e =>
    have := lead.length_le
    exact (block_wellFormed t (h.of_leads lead)).map fun _ _ body => ⟨value e rfl, body⟩
termination_by 2 * s.pending.length + 1

theorem function_wellFormed (s : Cursor) (h : s.Sound) :
    (function s).Meets fun t stmt => stmt.WellFormed (t.faults ≠ []) := by
  rw [function]
  apply (expectName_wellFormed h .functionName).bind
  rintro word t first ⟨named, missing⟩
  cases word with
  | none => exact .inr ⟨missing rfl, rfl, rfl, rfl⟩
  | some word =>
    apply (expect_meets t .openParameters).bind
    intro opened u second _
    split
    · apply (parameters_wellFormed ((h.of_leads first).of_leads second)).bind
      intro names v third listed
      apply (expect_meets v .closeParameters).bind
      intro closed w fourth _
      split
      · have all := ((first.trans second).trans third).trans fourth
        have := all.length_le
        exact (block_wellFormed w (h.of_leads all)).map
          fun _ _ body => .inl ⟨named word rfl, listed, body⟩
      · exact .inl ⟨named word rfl, listed, trivial⟩
    · exact .inl ⟨named word rfl, List.forall_mem_nil _, trivial⟩
termination_by 2 * s.pending.length + 1

theorem block_wellFormed (s : Cursor) (h : s.Sound) :
    (block s).Meets fun t ss => Stmt.AllWellFormed (t.faults ≠ []) ss := by
  rw [block]
  split
  · rename_i rest hs
    have := Cursor.length_of_cons hs
    apply Meets.widen
    apply (blockBody_wellFormed (s.moveTo rest) (h.tail hs)).bind
    intro body t lead inner
    apply (expect_meets t .closeBlock).bind
    intro closed u lead' _
    have still := AllWellFormed.of_leads lead' inner
    cases closed with
    | true => exact still
    | false => exact still
  · trivial
termination_by 2 * s.pending.length

theorem blockBody_wellFormed (s : Cursor) (h : s.Sound) :
    (blockBody s).Meets fun t ss => Stmt.AllWellFormed (t.faults ≠ []) ss := by
  by_cases closed : s.pending = [] ∨ s.sees .closeBrace
  · rw [blockBody_closed closed]
    trivial
  · have nonempty : s.pending ≠ [] := fun empty => closed (.inl empty)
    rw [blockBody_statement closed]
    have first := statement_wellFormed (.start s.pending) h
    have lead := Cursor.leads_resume (statement (.start s.pending)).leads
    have := Cursor.resume_length_lt (statement (.start s.pending)).leads nonempty
    have others := blockBody_wellFormed (s.resume (statement (.start s.pending)).next) (h.of_leads lead)
    -- The faults of the first statement are among those behind it, and those among the last ones.
    have kept (noted : (statement (.start s.pending)).next.faults ≠ []) :
        (blockBody (s.resume (statement (.start s.pending)).next)).next.faults ≠ [] :=
      (blockBody _).leads.faults_ne_nil (List.append_ne_nil_of_right_ne_nil s.faults noted)
    exact ⟨Stmt.WellFormed.mono kept _ first, others⟩
termination_by 2 * s.pending.length + 1

end

theorem program_wellFormed {ls : List Lexeme} (h : ∀ l ∈ ls, l.WellFormed) :
    Stmt.AllWellFormed ((program ls).faults ≠ []) (program ls).statements := by
  induction ls using statements_induction with
  | nil =>
    rw [program_nil]
    trivial
  | statement ls nonempty ih =>
    have first := statement_wellFormed (.start ls) h
    have others := ih fun l member => h l ((afterStatement_suffix ls).subset member)
    rw [program_of_ne_nil nonempty]
    exact ⟨Stmt.WellFormed.mono (List.append_ne_nil_of_left_ne_nil · _) _ first,
      Stmt.AllWellFormed.mono (List.append_ne_nil_of_right_ne_nil _) _ others⟩

end Parse

/-- Every accepted text gives a tree, and whether the text has faults or not the tree is well formed;
names are missing only where faults are reported. So it is equal to itself. -/
theorem parse_wellFormed {source : String} {tokens : List Token} (accepted : tokenize source = .ok tokens) :
    ∃ o, parse source = .ok o ∧ o.program.WellFormed (o.diagnostics ≠ []) ∧
      Node.same (.program o.program) (.program o.program) = true := by
  refine ⟨_, parse_of_tokenize accepted, ?_⟩
  have formed := Parse.program_wellFormed (Scanning.wellFormed_of_tokenize accepted)
  have noted : (Parse.program (Token.lexemes tokens)).faults ≠ [] →
      (parseTokens tokens (some source)).diagnostics ≠ [] := by
    rw [parseTokens_diagnostics]
    exact mt List.map_eq_nil_iff.1
  have whole : (parseTokens tokens (some source)).program.WellFormed
      ((parseTokens tokens (some source)).diagnostics ≠ []) := by
    rw [parseTokens_program]
    exact Stmt.AllWellFormed.mono noted _ formed
  exact ⟨whole, Stmt.sameAll_self _ whole⟩

/-- A declaration and a function without names, and an assignment behind them. -/
theorem parse_wellFormed_namesMissing :
    ∃ tokens o, tokenize "var = 1;\ndef (a);\nz = 2.5 * f(\"\");" = .ok tokens ∧
      parse "var = 1;\ndef (a);\nz = 2.5 * f(\"\");" = .ok o ∧
      o.program.WellFormed (o.diagnostics ≠ []) ∧
      Node.same (.program o.program) (.program o.program) = true ∧
      o.diagnostics.length = 2 ∧
      Node.same (.program o.program) (.program ⟨[.declaration "" .placeholder, .function "" [] [],
        .assignment "z" (.binary .mul (.literal (.decimal 2.5)) (.call "f" [.literal (.text "")]))]⟩) =
          true := by
  have scanned : (tokenize "var = 1;\ndef (a);\nz = 2.5 * f(\"\");").toOption.isSome = true := by
    decide +kernel
  have read : (parse "var = 1;\ndef (a);\nz = 2.5 * f(\"\");").toOption.map (fun o =>
      (o.diagnostics.length, Node.same (.program o.program)
        (.program ⟨[.declaration "" .placeholder, .function "" [] [],
          .assignment "z" (.binary .mul (.literal (.decimal 2.5))
            (.call "f" [.literal (.text "")]))]⟩))) = some (2, true) := by
    decide +kernel
  cases accepted : tokenize "var = 1;\ndef (a);\nz = 2.5 * f(\"\");" with
  | error e =>
    rw [accepted] at scanned
    cases scanned
  | ok tokens =>
    obtain ⟨o, parsed, formed, same⟩ := parse_wellFormed accepted
    rw [parsed] at read
    obtain ⟨count, tree⟩ := Prod.mk.inj (Option.some.inj read)
    exact ⟨tokens, o, rfl, parsed, formed, same, count, tree⟩

end ScriptFrontend
