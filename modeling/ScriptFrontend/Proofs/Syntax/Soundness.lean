import ScriptFrontend.Proofs.Syntax.Follows
import ScriptFrontend.Proofs.Syntax.Opening
import ScriptFrontend.Proofs.Syntax.Statements

/-!
# Every routine of the reader follows its phrases

What was read without a fault is a phrase with the tree that came out, and what precedes a first
fault is the start of a phrase. The routines behind a keyword follow the phrases that go on behind it.
-/
namespace ScriptFrontend.Parse
open Reading

theorem Cursor.expect_follows (s : Cursor) (slot : SymbolSlot) :
    (s.expect slot).Follows fun ls found => found = true ∧ ls = [.symbol slot.symbol] := by
  unfold expect
  split
  · split
    · rename_i b rest hs same
      exact .move hs ⟨rfl, by rw [same]⟩ _
    · exact .fault ⟨rfl, rfl⟩ _ _
  · exact .fault ⟨rfl, rfl⟩ _ _

theorem Cursor.expectName_follows (s : Cursor) (slot : NameSlot) :
    (s.expectName slot).Follows fun ls word => ∃ w, word = some w ∧ ls = [.name w] := by
  unfold expectName
  split
  · rename_i word rest hs
    exact .move hs ⟨word, rfl, rfl⟩ _
  · exact .fault ⟨"", rfl, rfl⟩ _ _

theorem noOperand_follows (s : Cursor) : (noOperand s).Follows (Phrase .primary) := by
  intro clean
  refine .inr ⟨⟨.noOperand, s.pending⟩, ?_, [], rfl, _, _, .integer 0⟩
  rw [noOperand_faults, Cursor.report_faults clean]
  rfl

mutual

theorem operand_follows (s : Cursor) : (operand s).Follows (Phrase .primary) := by
  rw [operand]
  split
  · rename_i value rest hs
    exact .move hs (.integer value) _
  · rename_i value rest hs
    exact .move hs (.decimal value) _
  · rename_i content rest hs
    exact .move hs (.text content) _
  · rename_i callee rest hs
    have := Cursor.length_of_cons₂ hs
    refine .behind₂ hs _ ?_
    refine (argumentList_follows (s.moveTo rest)).bind fun ls es t lead phrase => ?_
    refine (t.expect_follows .closeArguments).map _ fun last found closed => ?_
    obtain ⟨-, rfl⟩ := closed
    exact .call callee phrase
  · rename_i word rest _ hs
    exact .move hs (.identifier word) _
  · rename_i rest hs
    have := Cursor.length_of_cons hs
    refine .behind hs _ ?_
    refine (expression_follows (s.moveTo rest)).bind fun ls e t lead phrase => ?_
    refine (t.expect_follows .closeGroup).map _ fun last found closed => ?_
    obtain ⟨-, rfl⟩ := closed
    exact .group phrase
  · rename_i rest hs
    have := Cursor.length_of_cons hs
    refine .behind hs _ ?_
    exact (operand_follows (s.moveTo rest)).map _ fun ls e phrase => .sign .plus phrase
  · rename_i rest hs
    have := Cursor.length_of_cons hs
    refine .behind hs _ ?_
    exact (operand_follows (s.moveTo rest)).map _ fun ls e phrase => .sign .negate phrase
  · exact noOperand_follows s
termination_by 4 * s.pending.length

theorem chain_follows (s : Cursor) : (chain s).Follows (Chain (Phrase .primary)) := by
  rw [chain]
  split
  · rename_i b rest hs
    split
    · rename_i op symbol
      have := Cursor.length_of_cons hs
      refine .behind hs _ ?_
      refine (operand_follows (s.moveTo rest)).bind fun ls right t lead phrase => ?_
      have : t.pending.length ≤ rest.length := lead.length_le
      refine (chain_follows t).map _ fun more others tail => ?_
      rw [← BinaryOp.symbol_of_ofSymbol? symbol]
      exact .cons phrase tail
    · exact .stay .nil
  · exact .stay .nil
termination_by 4 * s.pending.length

theorem expression_follows (s : Cursor) : (expression s).Follows (Phrase .expression) := by
  rw [expression]
  refine (operand_follows s).bind fun ls first t lead phrase => ?_
  have := lead.length_le
  exact (chain_follows t).map _ fun more others tail => tail.assemble_phrase phrase
termination_by 4 * s.pending.length + 1

theorem arguments_follows (s : Cursor) : (arguments s).Follows (Phrase .arguments) := by
  rw [arguments]
  refine (expression_follows s).bind fun ls first t lead phrase => ?_
  have := lead.length_le
  split
  · rename_i rest ht
    have := Cursor.length_of_cons ht
    refine .behind ht _ ?_
    exact (arguments_follows (t.moveTo rest)).map _ fun more others tail =>
      .moreArguments phrase tail
  · exact .stay (by simpa using .lastArgument phrase)
termination_by 4 * s.pending.length + 2

theorem argumentList_follows (s : Cursor) : (argumentList s).Follows (Phrase .argumentList) := by
  rw [argumentList]
  split
  · exact .stay .noArguments
  · exact (arguments_follows s).mono fun ls es phrase => .someArguments phrase
termination_by 4 * s.pending.length + 3

end

/-! Statements -/

theorem finish_follows (s : Cursor) (slot : SymbolSlot) (stmt : Stmt) :
    (finish s slot stmt).Follows fun ls t => ls = [.symbol slot.symbol] ∧ t = stmt :=
  (s.expect_follows slot).map _ fun _ _ found => ⟨found.2, rfl⟩

theorem declaration_follows (s : Cursor) :
    (declaration s).Follows fun ls t => Phrase .statement (.symbol .kwVar :: ls) t := by
  unfold declaration
  refine (s.expectName_follows .variableName).bind fun _ _ t _ ⟨word, named, read⟩ => ?_
  subst named read
  refine (t.expect_follows .assignment).bind fun _ _ u _ ⟨found, read⟩ => ?_
  subst found read
  rw [if_pos rfl]
  refine (expression_follows u).bind fun ls e v _ phrase => ?_
  refine (finish_follows v .endOfDeclaration _).mono fun last t ⟨read, built⟩ => ?_
  subst read built
  exact .declaration word phrase

theorem assignment_follows (word : String) (s : Cursor) :
    (assignment word s).Follows fun ls t =>
      Phrase .statement (.name word :: .symbol .assign :: ls) t := by
  unfold assignment
  split
  · exact .fault (.assignment word ((Phrase.integer 0).ranked _)) _ _
  · refine (expression_follows s).bind fun ls e t _ phrase => ?_
    refine (finish_follows t .endOfAssignment _).mono fun last t ⟨read, built⟩ => ?_
    subst read built
    exact .assignment word phrase

theorem returned_follows (s : Cursor) :
    (returned s).Follows fun ls t => Phrase .statement (.symbol .kwReturn :: ls) t := by
  unfold returned
  refine (expression_follows s).bind fun ls e t _ phrase => ?_
  refine (finish_follows t .endOfReturn _).mono fun last t ⟨read, built⟩ => ?_
  subst read built
  exact .returnValue phrase

theorem evaluated_follows (s : Cursor) : (evaluated s).Follows (Phrase .statement) := by
  unfold evaluated
  refine (expression_follows s).bind fun ls e t _ phrase => ?_
  refine (finish_follows t .endOfExpression _).mono fun last t ⟨read, built⟩ => ?_
  subst read built
  exact .evaluation phrase

theorem condition_follows (c : Conditional) (s : Cursor) :
    (condition c s).Follows fun ls e => ∃ inner v, Phrase .expression inner v ∧ e = some v ∧
      ls = .symbol .openParen :: (inner ++ [.symbol .closeParen]) := by
  unfold condition
  refine (s.expect_follows _).bind fun _ _ t _ ⟨found, read⟩ => ?_
  subst found read
  rw [if_pos rfl]
  refine (expression_follows t).bind fun inner v u _ phrase => ?_
  refine (u.expect_follows _).map _ fun _ _ ⟨found, read⟩ => ?_
  subst found read
  exact ⟨inner, v, phrase, rfl, rfl⟩

theorem moreParameters_follows (s : Cursor) :
    (moreParameters s).Follows fun ls words => ∀ word, Phrase .names (.name word :: ls) (word :: words) := by
  rw [moreParameters]
  split
  · rename_i rest hs
    have := Cursor.length_of_cons hs
    refine .behind hs _ ?_
    refine ((s.moveTo rest).expectName_follows .nextParameter).bind fun _ _ t lead found => ?_
    obtain ⟨next, rfl, rfl⟩ := found
    have : t.pending.length ≤ rest.length := lead.length_le
    exact (moreParameters_follows t).map _ fun ls words more word => .moreNames word (more next)
  · exact .stay fun word => .lastName word
termination_by s.pending.length

theorem parameters_follows (s : Cursor) : (parameters s).Follows (Phrase .nameList) := by
  unfold parameters
  split
  · exact .stay .noNames
  · refine (s.expectName_follows .firstParameter).bind fun _ _ t _ ⟨first, named, read⟩ => ?_
    subst named read
    exact (moreParameters_follows t).map _ fun ls words more => .someNames (more first)

/-- A statement of a block has read something, or it has a fault. -/
theorem Reading.Follows.resumed {s : Cursor} {α : Type} {D : List Lexeme → α → Prop}
    {r : Reading (.start s.pending) α} (hr : r.Follows D) (nonempty : ∀ v, ¬D [] v) :
    (r.resumed s).Follows D := by
  intro clean
  rcases hr rfl with ⟨quiet, ls, cut, hv⟩ | ⟨fault, first, before, cut, more, v, hv⟩
  · have longer : r.next.pending.length ≠ s.pending.length := by
      have count := congrArg List.length cut
      have : ls ≠ [] := fun empty => nonempty r.value (empty ▸ hv)
      have := List.length_pos_iff.2 this
      simp only [Cursor.start_pending, List.length_append] at count
      omega
    refine .inl ⟨by simp [Cursor.resume, clean, quiet], ls, ?_, hv⟩
    simpa [Cursor.resume, longer] using cut
  · refine .inr ⟨fault, ?_, before, cut, more, v, hv⟩
    simp [Cursor.resume, clean, first]

mutual

theorem statement_follows (s : Cursor) : (statement s).Follows (Phrase .statement) := by
  rw [statement]
  split
  · rename_i rest hs
    exact .behind hs _ (declaration_follows _)
  · rename_i rest hs
    have := Cursor.length_of_cons hs
    exact .behind hs _ ((conditional_follows (s.moveTo rest)).mono fun _ _ => .choice)
  · rename_i rest hs
    have := Cursor.length_of_cons hs
    exact .behind hs _ (loop_follows (s.moveTo rest))
  · rename_i rest hs
    have := Cursor.length_of_cons hs
    exact .behind hs _ (function_follows (s.moveTo rest))
  · rename_i rest hs
    exact .behind hs _ (returned_follows _)
  · rename_i word rest hs
    exact .behind₂ hs _ (assignment_follows word _)
  · exact .fault (.evaluation ((Phrase.integer 0).ranked _)) _ _
  · exact evaluated_follows s
termination_by 2 * s.pending.length

theorem conditional_follows (s : Cursor) :
    (conditional s).Follows fun ls t => Phrase .conditional (.symbol .kwIf :: ls) t := by
  rw [conditional]
  refine (condition_follows .ifWord s).bind fun _ _ t lead ⟨inner, e, phrase, known, read⟩ => ?_
  subst known read
  have := lead.length_le
  refine (block_follows t).bind fun consequent as u lead' body => ?_
  have := lead'.length_le
  exact (alternative_follows e as u).mono fun ls stmt more => by simpa using more _ _ phrase body
termination_by 2 * s.pending.length + 1

theorem alternative_follows (e : Expr) (as : List Stmt) (s : Cursor) :
    (alternative e as s).Follows fun ls t => ∀ inner consequent, Phrase .expression inner e →
      Phrase .block consequent as →
      Phrase .conditional
        (.symbol .kwIf :: .symbol .openParen :: (inner ++ .symbol .closeParen :: (consequent ++ ls)))
        t := by
  rw [alternative]
  split
  · rename_i rest hs
    have := Cursor.length_of_cons₂ hs
    refine .behind₂ hs _ ?_
    exact (conditional_follows (s.moveTo rest)).map _ fun ls stmt chained _ _ phrase body =>
      .elseIf phrase body chained
  · rename_i rest _ hs
    have := Cursor.length_of_cons hs
    refine .behind hs _ ?_
    exact (block_follows (s.moveTo rest)).map _ fun ls bs other _ _ phrase body =>
      .ifThenElse phrase body other
  · exact .stay fun inner consequent phrase body => by simpa using Phrase.ifThen phrase body
termination_by 2 * s.pending.length

theorem loop_follows (s : Cursor) :
    (loop s).Follows fun ls t => Phrase .statement (.symbol .kwWhile :: ls) t := by
  rw [loop]
  refine (condition_follows .whileWord s).bind fun _ _ t lead ⟨inner, e, phrase, known, read⟩ => ?_
  subst known read
  have := lead.length_le
  refine (block_follows t).map _ fun ls body block => ?_
  simpa using Phrase.whileLoop phrase block
termination_by 2 * s.pending.length + 1

theorem function_follows (s : Cursor) :
    (function s).Follows fun ls t => Phrase .statement (.symbol .kwDef :: ls) t := by
  rw [function]
  refine (s.expectName_follows .functionName).bind fun _ _ t ht ⟨word, named, read⟩ => ?_
  subst named read
  refine (t.expect_follows .openParameters).bind fun _ _ u hu ⟨found, read⟩ => ?_
  subst found read
  rw [if_pos rfl]
  refine (parameters_follows u).bind fun names words v hv phrase => ?_
  refine (v.expect_follows .closeParameters).bind fun _ _ w hw ⟨found, read⟩ => ?_
  subst found read
  rw [if_pos rfl]
  have := (((ht.trans hu).trans hv).trans hw).length_le
  refine (block_follows w).map _ fun ls body block => ?_
  simpa [SymbolSlot.symbol] using Phrase.function word phrase block
termination_by 2 * s.pending.length + 1

theorem block_follows (s : Cursor) : (block s).Follows (Phrase .block) := by
  rw [block]
  split
  · rename_i rest hs
    have := Cursor.length_of_cons hs
    refine .behind hs _ ?_
    refine (blockBody_follows (s.moveTo rest)).bind fun ls body t _ phrase => ?_
    refine (t.expect_follows .closeBlock).bind fun _ _ u _ ⟨found, read⟩ => ?_
    subst found read
    exact fun clean => .inl ⟨clean, [], rfl, .block phrase⟩
  · exact .fault (.block .finished) _ _
termination_by 2 * s.pending.length

theorem blockBody_follows (s : Cursor) : (blockBody s).Follows (Phrase .program) := by
  by_cases closed : s.pending = [] ∨ s.sees .closeBrace
  · rw [blockBody_closed closed]
    exact .stay .finished
  · rw [blockBody_statement closed]
    have first := (statement_follows (.start s.pending)).resumed fun _ => Phrase.statement_ne_nil
    have := Cursor.resume_length_lt (statement (.start s.pending)).leads fun empty =>
      closed (.inl empty)
    refine first.andThen (fun ls phrase => ?_) fun ls stmt phrase =>
      ⟨[], [stmt], .statement phrase .finished⟩
    exact (blockBody_follows _).map _ fun more others => .statement phrase
termination_by 2 * s.pending.length + 1

end

theorem statement_start_follows (ls : List Lexeme) :
    ((statement (.start ls)).next.faults = [] ∧ ∃ front, ls = front ++ afterStatement ls ∧
        Phrase .statement front (statement (.start ls)).value) ∨
      ∃ f, (statement (.start ls)).next.faults.head? = some f ∧
        ∃ before, ls = before ++ f.rest ∧ ∃ more s, Phrase .statement (before ++ more) s :=
  Follows.resumed (s := .start ls) (statement_follows (.start ls))
    (fun _ => Phrase.statement_ne_nil) rfl

/-- A whole input is a program with the statements that came out, or what precedes the first fault
is the start of a program. -/
theorem program_follows (ls : List Lexeme) :
    ((program ls).faults = [] ∧ Phrase .program ls (program ls).statements) ∨
      ∃ f, (program ls).faults.head? = some f ∧ ∃ before, ls = before ++ f.rest ∧ Viable before := by
  induction ls using statements_induction with
  | nil => exact .inl ⟨by simp, by simpa using Phrase.finished⟩
  | statement ls nonempty ih =>
    rw [program_of_ne_nil nonempty]
    rcases statement_start_follows ls with
      ⟨quiet, front, cut, phrase⟩ | ⟨f, here, before, cut, more, s, phrase⟩
    · rcases ih with ⟨still, rest⟩ | ⟨f, later, before, cut', more, ss, rest⟩
      · refine .inl ⟨by simp [quiet, still], ?_⟩
        have whole := Phrase.statement phrase rest
        rwa [← cut] at whole
      · have whole := Phrase.statement phrase rest
        refine .inr ⟨f, by simpa [quiet] using later, front ++ before, ?_, more, _,
          by simpa using whole⟩
        rw [List.append_assoc, ← cut', ← cut]
    · have whole := Phrase.statement phrase .finished
      exact .inr ⟨f, by simp [here], before, cut, more, [s], by simpa using whole⟩

end ScriptFrontend.Parse
