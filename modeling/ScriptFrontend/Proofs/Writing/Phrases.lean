import ScriptFrontend.Proofs.Syntax.Grammar
import ScriptFrontend.Proofs.Writing.Writer

/-!
# What is written is a phrase

The written lexemes derive from the grammar with the tree they were written from, whatever the names
and values in it are; only blocks that stand alone have no phrase.
-/
namespace ScriptFrontend
variable {ls : List Lexeme} {e : Expr}

namespace Level

theorem strength_tighter (l : Level) : strength l.tighter = strength l + 1 := by
  cases l <;> rfl

theorem strength_injective {r r' : Option Level} (h : strength r = strength r') : r = r' := by
  rcases r with _ | l <;> rcases r' with _ | l'
  · rfl
  · cases l' <;> cases h
  · cases l <;> cases h
  · cases l <;> cases l' <;> first | rfl | cases h

theorem strength_le (r : Option Level) : strength r ≤ strength none := by
  rcases r with _ | l
  · exact Nat.le_refl _
  · cases l <;> decide

end Level

theorem Phrase.loosen {r r' : Option Level} (h : Phrase (.ranked r) ls e)
    (le : Level.strength r' ≤ Level.strength r) : Phrase (.ranked r') ls e := by
  induction r' using Level.ascend with
  | primary =>
    obtain rfl := Level.strength_injective (Nat.le_antisymm le (Level.strength_le r))
    exact h
  | level l ih =>
    by_cases same : Level.strength l = Level.strength r
    · exact Level.strength_injective same ▸ h
    · refine .operand l (ih ?_)
      rw [Level.strength_tighter]
      omega

/-- With parentheses where the rank is too loose, an expression stands at any rank. -/
theorem Phrase.grouped (needed : Bool) (r : Option Level) (h : Phrase (.ranked e.rank) ls e)
    (enough : needed = false → Level.strength r ≤ e.strength) :
    Phrase (.ranked r) (grouped needed ls) e := by
  cases needed with
  | true => exact (Phrase.group (h.loosen (Nat.zero_le _))).ranked r
  | false => exact h.loosen (enough rfl)

mutual

theorem written_phrase : ∀ e : Expr, Phrase (.ranked e.rank) e.written e
  | .literal (.integer value) => .integer value
  | .literal (.decimal value) => .decimal value
  | .literal (.text content) => .text content
  | .identifier word => .identifier word
  | .binary op left right => by
    have first := (written_phrase left).grouped (left.strength < Level.strength op.level)
      (some op.level) fun strong => Nat.le_of_not_lt (of_decide_eq_false strong)
    have second := (written_phrase right).grouped (right.strength ≤ Level.strength op.level)
      op.level.tighter fun stronger => by
        rw [Level.strength_tighter]
        exact Nat.lt_of_not_le (of_decide_eq_false stronger)
    exact .operation op first second
  | .unary op operand => by
    have inner := (written_phrase operand).grouped (operand.strength < Level.strength none) none
      fun strong => Nat.le_of_not_lt (of_decide_eq_false strong)
    exact .sign op inner
  | .call callee es => by
    by_cases none : es = []
    · exact none ▸ .call callee .noArguments
    · exact .call callee (.someArguments (writtenArguments_phrase es none))

theorem writtenArguments_phrase : ∀ es : List Expr, es ≠ [] → Phrase .arguments (writtenArguments es) es
  | [], h => absurd rfl h
  | [e], _ => .lastArgument ((written_phrase e).loosen (Nat.zero_le _))
  | e :: e' :: es, _ =>
    .moreArguments ((written_phrase e).loosen (Nat.zero_le _))
      (writtenArguments_phrase (e' :: es) (List.cons_ne_nil e' es))

end

theorem expression_phrase (e : Expr) : Phrase .expression e.written e :=
  (written_phrase e).loosen (Nat.zero_le _)

theorem writtenNames_phrase (word : String) (words : List String) :
    Phrase .names (writtenNames (word :: words)) (word :: words) := by
  induction words generalizing word with
  | nil => exact .lastName word
  | cons next words ih => exact .moreNames word (ih next)

theorem nameList_phrase (words : List String) : Phrase .nameList (writtenNames words) words := by
  cases words with
  | nil => exact .noNames
  | cons word words => exact .someNames (writtenNames_phrase word words)

mutual

theorem statement_phrase : ∀ s : Stmt, s.Writable → Phrase .statement s.written s
  | .declaration word e, _ => .declaration word (expression_phrase e)
  | .assignment word e, _ => .assignment word (expression_phrase e)
  | .block _, h => h.elim
  | .ifThen e consequent, h =>
    .choice (.ifThen (expression_phrase e) (braced_phrase consequent h.2))
  | .ifThenElse e consequent alternative, h =>
    .choice (.ifThenElse (expression_phrase e) (braced_phrase consequent h.2.1)
      (braced_phrase alternative h.2.2))
  | .whileLoop e body, h => .whileLoop (expression_phrase e) (braced_phrase body h.2)
  | .function word names body, h =>
    .function word (nameList_phrase names) (braced_phrase body h.2.2)
  | .returnValue e, _ => .returnValue (expression_phrase e)
  | .expression e, _ => .evaluation (expression_phrase e)

theorem statements_phrase : ∀ ss : List Stmt, WritableStatements ss →
    Phrase .program (writtenStatements ss) ss
  | [], _ => .finished
  | s :: ss, h => .statement (statement_phrase s h.1) (statements_phrase ss h.2)

theorem braced_phrase (ss : List Stmt) (h : WritableStatements ss) :
    Phrase .block (braced (writtenStatements ss)) ss :=
  .block (statements_phrase ss h)

end

end ScriptFrontend
