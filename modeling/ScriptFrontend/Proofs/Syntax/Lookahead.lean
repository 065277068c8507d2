import ScriptFrontend.Proofs.Syntax.Dispatch
import ScriptFrontend.Proofs.Syntax.Soundness
import ScriptFrontend.Proofs.Syntax.Tracks

/-!
# No fault depends on what lies behind it

Every routine, started at the same place of two inputs that agree up to a lexeme, goes the same way
in both until one reading is past that lexeme or the second meets a fault.
-/
namespace ScriptFrontend.Parse
open Reading

section Lookahead
variable {l : Lexeme} {p q : List Lexeme}

theorem sees_append_cons (a : List Lexeme) (l : Lexeme) (p q : List Lexeme) (b : Symbol) :
    (Cursor.start (a ++ l :: p)).sees b = (Cursor.start (a ++ l :: q)).sees b := by
  rw [Bool.eq_iff_iff, Cursor.start_sees, Cursor.start_sees, head?_append_cons a l p q]

theorem Cursor.expect_tracks (slot : SymbolSlot) (a : List Lexeme) :
    Tracks l p q ((start (a ++ l :: p)).expect slot) ((start (a ++ l :: q)).expect slot) := by
  by_cases found : (a ++ l :: q).head? = some (.symbol slot.symbol)
  · rcases a with _ | ⟨m, a⟩
    · obtain rfl : l = .symbol slot.symbol := Option.some.inj found
      rw [List.nil_append, expect_symbol]
      exact .inr (.inr (.behind p))
    · obtain rfl : m = .symbol slot.symbol := Option.some.inj found
      rw [List.cons_append, List.cons_append, expect_symbol, expect_symbol]
      exact .inl ⟨rfl, a, rfl, rfl⟩
  · rw [expect_other found]
    exact .of_fault _ _ _

theorem Cursor.expectName_tracks (slot : NameSlot) (a : List Lexeme) :
    Tracks l p q ((start (a ++ l :: p)).expectName slot) ((start (a ++ l :: q)).expectName slot) := by
  by_cases found : ∃ word, (a ++ l :: q).head? = some (.name word)
  · obtain ⟨word, found⟩ := found
    rcases a with _ | ⟨m, a⟩
    · obtain rfl : l = .name word := Option.some.inj found
      exact .inr (.inr (.behind p))
    · obtain rfl : m = .name word := Option.some.inj found
      exact .inl ⟨rfl, a, rfl, rfl⟩
  · rw [expectName_other (not_exists.1 found)]
    exact .of_fault _ _ _

theorem operand_past (h : l.opensOperand = true) (p : List Lexeme) :
    (operand (.start (l :: p))).next.Past p := by
  cases l with
  | integer value => exact operand_integer value ▸ .behind p
  | decimal value => exact operand_decimal value ▸ .behind p
  | text content => exact operand_text content ▸ .behind p
  | name word =>
    by_cases call : p.head? = some (.symbol .openParen)
    · obtain ⟨rest, rfl⟩ := List.head?_eq_some_iff.1 call
      have past : (Cursor.start rest).Past (.symbol .openParen :: rest) := .start (by simp)
      rw [operand_call]
      exact past.leads (Reading.leads _)
    · exact operand_name call ▸ .behind p
  | symbol b =>
    rcases Lexeme.symbol_of_opensOperand h with rfl | ⟨op, rfl⟩
    · rw [operand_group]
      exact (Cursor.Past.behind p).leads (Reading.leads _)
    · rw [operand_sign]
      exact (Cursor.Past.behind p).leads (Reading.leads _)

theorem alternative_past (e : Expr) (consequent : List Stmt) (p : List Lexeme) :
    (alternative e consequent (.start (.symbol .kwElse :: p))).next.Past p := by
  by_cases chained : p.head? = some (.symbol .kwIf)
  · obtain ⟨rest, rfl⟩ := List.head?_eq_some_iff.1 chained
    have past : (Cursor.start rest).Past (.symbol .kwIf :: rest) := .start (by simp)
    exact alternative_elseIf ▸ past.leads (Reading.leads _)
  · have past : (Cursor.start p).Past p := .behind p
    exact alternative_else chained ▸ past.leads (Reading.leads _)

theorem noOperand_faults_ne_nil (s : Cursor) : (noOperand s).next.faults ≠ [] := by
  rw [noOperand_faults]
  exact s.report_faults_ne_nil .noOperand

mutual

theorem operand_tracks (a : List Lexeme) :
    Tracks l p q (operand (.start (a ++ l :: p))) (operand (.start (a ++ l :: q))) := by
  by_cases opens : ∀ m ∈ (a ++ l :: q).head?, m.opensOperand = false
  · rw [operand_other opens]
    exact .inr (.inl (noOperand_faults_ne_nil _))
  rcases a with _ | ⟨m, a⟩
  · exact .inr (.inr (operand_past (by simpa using opens) p))
  simp only [List.cons_append]
  cases m with
  | integer value =>
    rw [operand_integer, operand_integer]
    exact .inl ⟨rfl, a, rfl, rfl⟩
  | decimal value =>
    rw [operand_decimal, operand_decimal]
    exact .inl ⟨rfl, a, rfl, rfl⟩
  | text content =>
    rw [operand_text, operand_text]
    exact .inl ⟨rfl, a, rfl, rfl⟩
  | name word =>
    by_cases call : (a ++ l :: q).head? = some (.symbol .openParen)
    · rcases a with _ | ⟨m, a⟩
      · obtain rfl : l = .symbol .openParen := Option.some.inj call
        rw [List.nil_append, operand_call]
        exact .of_behind _ _
      · obtain rfl : m = .symbol .openParen := Option.some.inj call
        rw [List.cons_append, List.cons_append, operand_call, operand_call]
        refine .widen (.bind (argumentList_tracks a) fun es b _ _ _ => ?_) _ _
        exact (Cursor.expect_tracks .closeArguments b).map _
    · rw [operand_name (head?_append_cons a l p q ▸ call), operand_name call]
      exact .inl ⟨rfl, a, rfl, rfl⟩
  | symbol b =>
    rcases Lexeme.symbol_of_opensOperand (by simpa using opens) with rfl | ⟨op, rfl⟩
    · rw [operand_group, operand_group]
      refine .widen (.bind (expression_tracks a) fun e b _ _ _ => ?_) _ _
      exact (Cursor.expect_tracks .closeGroup b).map _
    · rw [operand_sign, operand_sign]
      exact ((operand_tracks a).map _).widen _ _
termination_by 4 * a.length

theorem chain_tracks (a : List Lexeme) :
    Tracks l p q (chain (.start (a ++ l :: p))) (chain (.start (a ++ l :: q))) := by
  by_cases operator : ∃ op : BinaryOp, (a ++ l :: q).head? = some (.symbol op.symbol)
  · obtain ⟨op, operator⟩ := operator
    rcases a with _ | ⟨m, a⟩
    · obtain rfl : l = .symbol op.symbol := Option.some.inj operator
      rw [List.nil_append, chain_operator]
      exact .of_behind _ _
    · obtain rfl : m = .symbol op.symbol := Option.some.inj operator
      rw [List.cons_append, List.cons_append, chain_operator, chain_operator]
      refine .widen (.bind (operand_tracks a) fun right b lead _ _ => ?_) _ _
      have := length_le_of_leads lead
      exact (chain_tracks b).map _
  · have none := not_exists.1 operator
    rw [chain_other none, chain_other (head?_append_cons a l p q ▸ none)]
    exact .stay [] a
termination_by 4 * a.length

theorem expression_tracks (a : List Lexeme) :
    Tracks l p q (expression (.start (a ++ l :: p))) (expression (.start (a ++ l :: q))) := by
  rw [expression, expression]
  refine .bind (operand_tracks a) fun first b lead _ _ => ?_
  have := length_le_of_leads lead
  exact (chain_tracks b).map _
termination_by 4 * a.length + 1

theorem arguments_tracks (a : List Lexeme) :
    Tracks l p q (arguments (.start (a ++ l :: p))) (arguments (.start (a ++ l :: q))) := by
  rw [arguments, arguments]
  refine .bind (expression_tracks a) fun first b lead _ _ => ?_
  have := length_le_of_leads lead
  rcases b with _ | ⟨m, b⟩
  · cases l with
    | symbol c =>
      cases c with
      | comma => exact .of_behind _ _
      | _ => exact .stay [first] []
    | _ => exact .stay [first] []
  · cases m with
    | symbol c =>
      cases c with
      | comma =>
        have : b.length + 1 ≤ a.length := length_le_of_leads lead
        exact ((arguments_tracks b).map _).widen _ _
      | _ => exact .stay [first] (_ :: b)
    | _ => exact .stay [first] (_ :: b)
termination_by 4 * a.length + 2

theorem argumentList_tracks (a : List Lexeme) :
    Tracks l p q (argumentList (.start (a ++ l :: p))) (argumentList (.start (a ++ l :: q))) := by
  rw [argumentList, argumentList, sees_append_cons a l p q]
  by_cases closed : (Cursor.start (a ++ l :: q)).sees .closeParen
  · rw [if_pos closed, if_pos closed]
    exact .stay [] a
  · rw [if_neg closed, if_neg closed]
    exact arguments_tracks a
termination_by 4 * a.length + 3

end

/-! Statements -/

theorem finish_tracks (slot : SymbolSlot) (stmt : Stmt) (a : List Lexeme) :
    Tracks l p q (finish (.start (a ++ l :: p)) slot stmt)
      (finish (.start (a ++ l :: q)) slot stmt) :=
  (Cursor.expect_tracks slot a).map _

theorem declaration_tracks (a : List Lexeme) :
    Tracks l p q (declaration (.start (a ++ l :: p))) (declaration (.start (a ++ l :: q))) := by
  unfold declaration
  refine .bind (Cursor.expectName_tracks .variableName a) fun word b _ _ _ => ?_
  cases word with
  | none => exact .stay _ b
  | some word =>
    refine .bind (Cursor.expect_tracks .assignment b) fun found c _ _ _ => ?_
    cases found with
    | false => exact .stay _ c
    | true =>
      rw [if_pos rfl, if_pos rfl]
      exact .bind (expression_tracks c) fun e d _ _ _ => finish_tracks _ _ d

theorem assignment_tracks (word : String) (a : List Lexeme) :
    Tracks l p q (assignment word (.start (a ++ l :: p))) (assignment word (.start (a ++ l :: q))) := by
  unfold assignment
  rw [sees_append_cons a l p q]
  by_cases missing : (Cursor.start (a ++ l :: q)).sees .semicolon
  · rw [if_pos missing, if_pos missing]
    exact .of_fault _ _ _
  · rw [if_neg missing, if_neg missing]
    exact .bind (expression_tracks a) fun e b _ _ _ => finish_tracks _ _ b

theorem returned_tracks (a : List Lexeme) :
    Tracks l p q (returned (.start (a ++ l :: p))) (returned (.start (a ++ l :: q))) :=
  .bind (expression_tracks a) fun _ b _ _ _ => finish_tracks _ _ b

theorem evaluated_tracks (a : List Lexeme) :
    Tracks l p q (evaluated (.start (a ++ l :: p))) (evaluated (.start (a ++ l :: q))) :=
  .bind (expression_tracks a) fun _ b _ _ _ => finish_tracks _ _ b

theorem condition_tracks (c : Conditional) (a : List Lexeme) :
    Tracks l p q (condition c (.start (a ++ l :: p))) (condition c (.start (a ++ l :: q))) := by
  unfold condition
  refine .bind (Cursor.expect_tracks (.openCondition c) a) fun opened b _ _ _ => ?_
  cases opened with
  | false => exact .stay _ b
  | true =>
    rw [if_pos rfl, if_pos rfl]
    refine .bind (expression_tracks b) fun e d _ _ _ => ?_
    exact (Cursor.expect_tracks (.closeCondition c) d).map _

theorem moreParameters_tracks (a : List Lexeme) :
    Tracks l p q (moreParameters (.start (a ++ l :: p))) (moreParameters (.start (a ++ l :: q))) := by
  rw [moreParameters, moreParameters]
  rcases a with _ | ⟨m, a⟩
  · cases l with
    | symbol c =>
      cases c with
      | comma => exact .of_behind _ _
      | _ => exact .stay [] []
    | _ => exact .stay [] []
  · cases m with
    | symbol c =>
      cases c with
      | comma =>
        refine .widen (.bind (Cursor.expectName_tracks .nextParameter a) fun word b lead _ _ => ?_) _ _
        have := length_le_of_leads lead
        exact (moreParameters_tracks b).map _
      | _ => exact .stay [] (_ :: a)
    | _ => exact .stay [] (_ :: a)
termination_by a.length

theorem parameters_tracks (a : List Lexeme) :
    Tracks l p q (parameters (.start (a ++ l :: p))) (parameters (.start (a ++ l :: q))) := by
  unfold parameters
  rw [sees_append_cons a l p q]
  by_cases closed : (Cursor.start (a ++ l :: q)).sees .closeParen
  · rw [if_pos closed, if_pos closed]
    exact .stay [] a
  · rw [if_neg closed, if_neg closed]
    refine .bind (Cursor.expectName_tracks .firstParameter a) fun word b _ _ _ => ?_
    exact (moreParameters_tracks b).map _

theorem evaluated_past (h : l.opensOperand = true) (p : List Lexeme) :
    (evaluated (.start (l :: p))).next.Past p := by
  unfold evaluated
  rw [expression]
  exact ((operand_past h p).bind _).bind _

theorem statement_past (h : l.opensStatement = true) (p : List Lexeme) :
    (statement (.start (l :: p))).next.Past p := by
  have behind : (Cursor.start p).Past p := .behind p
  cases l with
  | symbol b =>
    cases b with
    | kwVar => exact statement_declaration ▸ behind.leads (Reading.leads _)
    | kwIf => exact statement_conditional ▸ behind.leads (Reading.leads _)
    | kwWhile => exact statement_loop ▸ behind.leads (Reading.leads _)
    | kwDef => exact statement_function ▸ behind.leads (Reading.leads _)
    | kwReturn => exact statement_returned ▸ behind.leads (Reading.leads _)
    | openParen | plus | minus =>
      rw [statement_plain rfl (by simp)]
      exact evaluated_past rfl p
    | _ => exact absurd h (by decide)
  | name word =>
    by_cases assigns : p.head? = some (.symbol .assign)
    · obtain ⟨rest, rfl⟩ := List.head?_eq_some_iff.1 assigns
      have past : (Cursor.start rest).Past (.symbol .assign :: rest) := .start (by simp)
      exact statement_assignment ▸ past.leads (Reading.leads _)
    · exact statement_name assigns ▸ evaluated_past rfl p
  | _ =>
    rw [statement_plain rfl (by simp)]
    exact evaluated_past rfl p

theorem statement_progress {ls : List Lexeme} (h : (statement (.start ls)).next.faults = []) :
    (statement (.start ls)).next.pending.length < ls.length := by
  rcases statement_follows (.start ls) rfl with ⟨-, front, cut, phrase⟩ | ⟨f, first, -⟩
  · have nonempty : front ≠ [] := fun empty => Phrase.statement_ne_nil (empty ▸ phrase)
    have count := congrArg List.length cut
    have := List.length_pos_iff.2 nonempty
    simp only [Cursor.start_pending, List.length_append] at count
    omega
  · simp [h] at first

theorem resumed_tracks {a : List Lexeme}
    (h : Tracks l p q (statement (.start (a ++ l :: p))) (statement (.start (a ++ l :: q)))) :
    Tracks l p q (Reading.resumed (.start (a ++ l :: p)) (statement (.start (a ++ l :: p))))
      (Reading.resumed (.start (a ++ l :: q)) (statement (.start (a ++ l :: q)))) := by
  rcases h with ⟨value, b, here, there⟩ | fault | past
  · have shorter := statement_progress (by rw [here]; rfl)
    have shorter' := statement_progress (by rw [there]; rfl)
    rw [here] at shorter
    rw [there] at shorter'
    refine .inl ⟨value, b, ?_, ?_⟩
    · exact (congrArg _ here).trans (Cursor.resume_start shorter)
    · exact (congrArg _ there).trans (Cursor.resume_start shorter')
  · refine .inr (.inl ?_)
    simpa [Reading.resumed, Cursor.resume] using fault
  · refine .inr (.inr ⟨?_, by simpa [Reading.resumed, Cursor.resume] using past.2⟩)
    exact Nat.le_trans (Cursor.resume_length_le _ _) past.1

/-- Without a common lexeme in front, `l` itself starts the statement. -/
theorem statement_tracks_first :
    Tracks l p q (statement (.start (l :: p))) (statement (.start (l :: q))) := by
  by_cases opens : l.opensStatement = true
  · exact .inr (.inr (statement_past opens p))
  by_cases stray : l = .symbol .kwElse
  · rw [stray, statement_strayElse, statement_strayElse]
    exact .of_fault _ _ _
  cases l with
  | symbol b =>
    have plain : (Lexeme.symbol b).isKeyword = false := by
      cases b <;> first | rfl | exact absurd rfl stray | exact absurd rfl opens
    rw [statement_plain plain (by simp), statement_plain plain (by simp)]
    exact evaluated_tracks []
  | _ => exact absurd rfl opens

theorem statement_tracks_name (word : String) (a : List Lexeme) :
    Tracks l p q (statement (.start (.name word :: (a ++ l :: p))))
      (statement (.start (.name word :: (a ++ l :: q)))) := by
  by_cases assigns : (a ++ l :: q).head? = some (.symbol .assign)
  · rcases a with _ | ⟨n, a⟩
    · obtain rfl : l = .symbol .assign := Option.some.inj assigns
      rw [List.nil_append, statement_assignment]
      exact .of_behind _ _
    · obtain rfl : n = .symbol .assign := Option.some.inj assigns
      rw [List.cons_append, List.cons_append, statement_assignment, statement_assignment]
      exact (assignment_tracks word a).widen _ _
  · rw [statement_name assigns, statement_name (head?_append_cons a l p q ▸ assigns)]
    exact evaluated_tracks (_ :: a)

mutual

theorem statement_tracks (a : List Lexeme) :
    Tracks l p q (statement (.start (a ++ l :: p))) (statement (.start (a ++ l :: q))) := by
  rcases a with _ | ⟨m, a⟩
  · exact statement_tracks_first
  simp only [List.cons_append]
  cases m with
  | symbol b =>
    cases b with
    | kwVar =>
      rw [statement_declaration, statement_declaration]
      exact (declaration_tracks a).widen _ _
    | kwIf =>
      rw [statement_conditional, statement_conditional]
      exact (conditional_tracks a).widen _ _
    | kwWhile =>
      rw [statement_loop, statement_loop]
      exact (loop_tracks a).widen _ _
    | kwDef =>
      rw [statement_function, statement_function]
      exact (function_tracks a).widen _ _
    | kwReturn =>
      rw [statement_returned, statement_returned]
      exact (returned_tracks a).widen _ _
    | kwElse =>
      rw [statement_strayElse, statement_strayElse]
      exact .of_fault _ _ _
    | _ =>
      rw [statement_plain rfl (by simp), statement_plain rfl (by simp)]
      exact evaluated_tracks (_ :: a)
  | name word => exact statement_tracks_name word a
  | _ =>
    rw [statement_plain rfl (by simp), statement_plain rfl (by simp)]
    exact evaluated_tracks (_ :: a)
termination_by 2 * a.length

theorem conditional_tracks (a : List Lexeme) :
    Tracks l p q (conditional (.start (a ++ l :: p))) (conditional (.start (a ++ l :: q))) := by
  rw [conditional, conditional]
  refine .bind (condition_tracks .ifWord a) fun e b lead _ _ => ?_
  have := length_le_of_leads lead
  cases e with
  | none => exact .stay _ b
  | some e =>
    refine .bind (block_tracks b) fun consequent c lead' _ _ => ?_
    have := length_le_of_leads lead'
    exact alternative_tracks e consequent c
termination_by 2 * a.length + 1

theorem alternative_tracks (e : Expr) (consequent : List Stmt) (a : List Lexeme) :
    Tracks l p q (alternative e consequent (.start (a ++ l :: p)))
      (alternative e consequent (.start (a ++ l :: q))) := by
  by_cases goes : (a ++ l :: q).head? = some (.symbol .kwElse)
  · rcases a with _ | ⟨m, a⟩
    · obtain rfl : l = .symbol .kwElse := by simpa using goes
      exact .inr (.inr (alternative_past e consequent p))
    obtain rfl : m = .symbol .kwElse := by simpa using goes
    rw [List.cons_append, List.cons_append]
    by_cases chained : (a ++ l :: q).head? = some (.symbol .kwIf)
    · rcases a with _ | ⟨n, a⟩
      · obtain rfl : l = .symbol .kwIf := Option.some.inj chained
        rw [List.nil_append, alternative_elseIf]
        exact .of_behind _ _
      · obtain rfl : n = .symbol .kwIf := Option.some.inj chained
        rw [List.cons_append, List.cons_append, alternative_elseIf, alternative_elseIf]
        exact ((conditional_tracks a).map _).widen _ _
    · rw [alternative_else chained, alternative_else (head?_append_cons a l p q ▸ chained)]
      exact ((block_tracks a).map _).widen _ _
  · rw [alternative_other goes, alternative_other (head?_append_cons a l p q ▸ goes)]
    exact .stay _ a
termination_by 2 * a.length

theorem loop_tracks (a : List Lexeme) :
    Tracks l p q (loop (.start (a ++ l :: p))) (loop (.start (a ++ l :: q))) := by
  rw [loop, loop]
  refine .bind (condition_tracks .whileWord a) fun e b lead _ _ => ?_
  have := length_le_of_leads lead
  cases e with
  | none => exact .stay _ b
  | some e => exact (block_tracks b).map _
termination_by 2 * a.length + 1

theorem function_tracks (a : List Lexeme) :
    Tracks l p q (function (.start (a ++ l :: p))) (function (.start (a ++ l :: q))) := by
  rw [function, function]
  refine .bind (Cursor.expectName_tracks .functionName a) fun word b lead₁ _ _ => ?_
  cases word with
  | none => exact .stay _ b
  | some word =>
    refine .bind (Cursor.expect_tracks .openParameters b) fun opened c lead₂ _ _ => ?_
    cases opened with
    | false => exact .stay _ c
    | true =>
      rw [if_pos rfl, if_pos rfl]
      refine .bind (parameters_tracks c) fun names d lead₃ _ _ => ?_
      refine .bind (Cursor.expect_tracks .closeParameters d) fun closed e lead₄ _ _ => ?_
      cases closed with
      | false => exact .stay _ e
      | true =>
        have := length_le_of_leads (((lead₁.trans lead₂).trans lead₃).trans lead₄)
        exact (block_tracks e).map _
termination_by 2 * a.length + 1

theorem block_tracks (a : List Lexeme) :
    Tracks l p q (block (.start (a ++ l :: p))) (block (.start (a ++ l :: q))) := by
  by_cases opened : (a ++ l :: q).head? = some (.symbol .openBrace)
  · rcases a with _ | ⟨m, a⟩
    · obtain rfl : l = .symbol .openBrace := Option.some.inj opened
      rw [List.nil_append, block_braced]
      exact .of_behind _ _
    · obtain rfl : m = .symbol .openBrace := Option.some.inj opened
      rw [List.cons_append, List.cons_append, block_braced, block_braced]
      refine .widen (.bind (blockBody_tracks a) fun body b _ _ _ => ?_) _ _
      refine .bind (Cursor.expect_tracks .closeBlock b) fun closed c _ _ _ => ?_
      exact .inl ⟨rfl, c, by cases closed <;> rfl, by cases closed <;> rfl⟩
  · rw [block_other opened]
    exact .of_fault _ _ _
termination_by 2 * a.length

theorem blockBody_tracks (a : List Lexeme) :
    Tracks l p q (blockBody (.start (a ++ l :: p))) (blockBody (.start (a ++ l :: q))) := by
  have same := sees_append_cons a l p q .closeBrace
  by_cases closed : (Cursor.start (a ++ l :: q)).sees .closeBrace
  · rw [blockBody_closed (.inr closed), blockBody_closed (.inr (same.trans closed))]
    exact .stay [] a
  · have inside : ¬((Cursor.start (a ++ l :: q)).pending = [] ∨
        (Cursor.start (a ++ l :: q)).sees .closeBrace) := by
      simpa using closed
    have inside' : ¬((Cursor.start (a ++ l :: p)).pending = [] ∨
        (Cursor.start (a ++ l :: p)).sees .closeBrace) := by
      simpa [same] using closed
    rw [blockBody_statement inside, blockBody_statement inside']
    refine .bind (resumed_tracks (statement_tracks a)) fun first b _ _ here => ?_
    -- Whatever the statement read, it gave up at least one of the common lexemes.
    have shorter := Cursor.resume_length_lt (s := .start (a ++ l :: p))
      (statement (.start (a ++ l :: p))).leads (by simp)
    have : b.length < a.length := by
      have count : (b ++ l :: p).length < (a ++ l :: p).length := by
        rw [← Cursor.start_pending (b ++ l :: p), ← here]
        exact shorter
      simp only [List.length_append] at count
      omega
    exact (blockBody_tracks b).map _
termination_by 2 * a.length + 1

end

end Lookahead
end ScriptFrontend.Parse
