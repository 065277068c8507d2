import ScriptFrontend.Proofs.Syntax.Dispatch
import ScriptFrontend.Proofs.Syntax.Fusion

/-!
# Every phrase is read

A phrase with something behind it that cannot prolong it is read without a fault, gives its tree and
leaves exactly what is behind it. For expressions the statement goes through their flat form, so the
induction over phrases carries for each level the chain of operands that the reader walks along.
-/
namespace ScriptFrontend.Parse

namespace Reading
variable {s t u : Cursor} {α β : Type}

def Gives (r : Reading s α) (v : α) (t : Cursor) : Prop :=
  r.value = v ∧ r.next = t

namespace Gives
variable {v : α} {w : β}

theorem stay : (Reading.stay s v).Gives v s := ⟨rfl, rfl⟩

theorem move {rest : List Lexeme} {lead : s.Leads (s.moveTo rest)} :
    (Reading.move v rest lead).Gives v (s.moveTo rest) := ⟨rfl, rfl⟩

theorem widen {r : Reading t α} (h : r.Gives v u) (lead : s.Leads t) : (r.widen lead).Gives v u := h

theorem map {r : Reading s α} (h : r.Gives v t) (f : α → β) : (r.map f).Gives (f v) t :=
  ⟨congrArg f h.1, h.2⟩

theorem resumed {r : Reading (.start s.pending) α} (h : r.Gives v t) :
    (r.resumed s).Gives v (s.resume t) :=
  ⟨h.1, congrArg s.resume h.2⟩

theorem bind {r : Reading s α} {go : α → (t : Cursor) → s.Leads t → Reading t β}
    (h : r.Gives v t) (k : ∀ lead, (go v t lead).Gives w u) : (r.bind go).Gives w u := by
  obtain ⟨rfl, rfl⟩ := h
  exact k r.leads

end Gives
end Reading

open Reading
variable {ls tail rest : List Lexeme}

theorem Cursor.expect_gives (slot : SymbolSlot) (rest : List Lexeme) :
    ((start (.symbol slot.symbol :: rest)).expect slot).Gives true (start rest) := by
  simp only [expect, start_pending, if_pos]
  exact .move

theorem Cursor.expectName_gives (slot : NameSlot) (word : String) (rest : List Lexeme) :
    ((start (.name word :: rest)).expectName slot).Gives (some word) (start rest) :=
  .move

/-! Expressions -/

/-- Nothing here prolongs an expression. -/
def EndsExpression (tail : List Lexeme) : Prop :=
  tail.head? ≠ some (.symbol .openParen) ∧ ∀ op : BinaryOp, tail.head? ≠ some (.symbol op.symbol)

theorem endsExpression_of_mem {b : Symbol} (h : b ∈ [.closeParen, .comma, .semicolon])
    (rest : List Lexeme) : EndsExpression (.symbol b :: rest) := by
  constructor
  · rintro ⟨⟩
    simp at h
  · rintro op ⟨⟩
    cases op <;> revert h <;> decide

def AcceptsOperand (ls : List Lexeme) (e : Expr) : Prop :=
  ∀ tail : List Lexeme, tail.head? ≠ some (.symbol .openParen) →
    (operand (.start (ls ++ tail))).Gives e (.start tail)

theorem Chain.head?_ne {P : List Lexeme → Expr → Prop} {others : List (BinaryOp × Expr)}
    (h : Chain P ls others) (ends : EndsExpression tail) :
    (ls ++ tail).head? ≠ some (.symbol .openParen) := by
  cases h with
  | nil => exact ends.1
  | @cons op _ _ _ _ _ _ => cases op <;> nofun

theorem chain_gives {others : List (BinaryOp × Expr)} (h : Chain AcceptsOperand ls others)
    (ends : EndsExpression tail) : (chain (.start (ls ++ tail))).Gives others (.start tail) := by
  induction h with
  | nil =>
    rw [List.nil_append, chain_other ends.2]
    exact .stay
  | @cons op front more e others operand rest ih =>
    rw [List.cons_append, List.append_assoc, chain_operator]
    exact .widen (.bind (operand _ (rest.head?_ne ends)) fun _ => ih.map _) _

theorem expression_gives {e : Expr} (h : Flat AcceptsOperand (some .disjunction) ls e)
    (ends : EndsExpression tail) : (expression (.start (ls ++ tail))).Gives e (.start tail) := by
  obtain ⟨a, b, first, others, rfl, operand, chain, rfl⟩ := h.assemble_eq
  rw [expression, List.append_assoc]
  exact .bind (operand _ (chain.head?_ne ends)) fun _ => (chain_gives chain ends).map _

theorem finish_gives {e : Expr} (h : Flat AcceptsOperand (some .disjunction) ls e)
    (slot : SymbolSlot) (last : slot.symbol = .semicolon) (stmt : Expr → Stmt) (tail : List Lexeme) :
    ((expression (.start (ls ++ [.symbol .semicolon] ++ tail))).bind fun e t _ =>
      finish t slot (stmt e)).Gives (stmt e) (.start tail) := by
  rw [List.append_assoc]
  refine .bind (expression_gives h (endsExpression_of_mem (by simp) tail)) fun _ => ?_
  rw [← last]
  exact (Cursor.expect_gives slot tail).map _

theorem condition_gives {e : Expr} (h : Flat AcceptsOperand (some .disjunction) ls e)
    (c : Conditional) (tail : List Lexeme) :
    (condition c (.start (.symbol .openParen :: (ls ++ .symbol .closeParen :: tail)))).Gives (some e)
      (.start tail) := by
  unfold condition
  refine .bind (Cursor.expect_gives (.openCondition c) _) fun _ => ?_
  rw [if_pos rfl]
  refine .bind (expression_gives h (endsExpression_of_mem (by simp) tail)) fun _ => ?_
  exact (Cursor.expect_gives (.closeCondition c) tail).map _

/-! Statements -/

theorem blockBody_gives_nil (tail : List Lexeme) :
    (blockBody (.start (.symbol .closeBrace :: tail))).Gives []
      (.start (.symbol .closeBrace :: tail)) := by
  rw [blockBody_closed (.inr rfl)]
  exact .stay

theorem blockBody_gives_cons {s : Stmt} {ss : List Stmt} {u : Cursor}
    (inside : ls.head? ≠ some (.symbol .closeBrace)) (shorter : rest.length < ls.length)
    (first : (statement (.start ls)).Gives s (.start rest))
    (others : (blockBody (.start rest)).Gives ss u) : (blockBody (.start ls)).Gives (s :: ss) u := by
  have going : ¬((Cursor.start ls).pending = [] ∨ (Cursor.start ls).sees .closeBrace) := by
    rintro (empty | closed)
    · obtain rfl : ls = [] := empty
      simp at shorter
    · exact inside ((Cursor.start_sees _ _).1 closed)
  have resumed : (Reading.resumed (.start ls) (statement (.start ls))).Gives s (.start rest) :=
    Cursor.resume_start shorter ▸ Gives.resumed (s := .start ls) first
  rw [blockBody_statement going]
  exact resumed.bind fun _ => others.map _

/-- What is behind a statement is read as an input of its own. -/
theorem program_of_gives {s : Stmt} (shorter : rest.length < ls.length)
    (first : (statement (.start ls)).Gives s (.start rest)) :
    program ls = ⟨s :: (program rest).statements, (program rest).faults, (program rest).rest⟩ := by
  have nonempty : ls ≠ [] := by
    rintro rfl
    simp at shorter
  have behind : afterStatement ls = rest := afterStatement_eq (by rw [first.2]; rfl) shorter
  rw [program_of_ne_nil nonempty, behind, first.1, first.2]
  rfl

theorem program_cons {s : Stmt} {ss : List Stmt} (shorter : rest.length < ls.length)
    (first : (statement (.start ls)).Gives s (.start rest))
    (others : program rest = ⟨ss, [], []⟩) : program ls = ⟨s :: ss, [], []⟩ := by
  rw [program_of_gives shorter first, others]

def Accepts : (n : Nonterminal) → List Lexeme → n.Tree → Prop
  | .ranked r, ls, e => Flat AcceptsOperand r ls e
  | .arguments, ls, es => ∀ tail,
      (arguments (.start (ls ++ .symbol .closeParen :: tail))).Gives es
        (.start (.symbol .closeParen :: tail))
  | .argumentList, ls, es => ∀ tail,
      (argumentList (.start (ls ++ .symbol .closeParen :: tail))).Gives es
        (.start (.symbol .closeParen :: tail))
  | .names, ls, words => ∀ slot tail,
      (((Cursor.start (ls ++ .symbol .closeParen :: tail)).expectName slot).bind fun word t _ =>
        (moreParameters t).map fun others => word.toList ++ others).Gives words
        (.start (.symbol .closeParen :: tail))
  | .nameList, ls, words => ∀ tail,
      (parameters (.start (ls ++ .symbol .closeParen :: tail))).Gives words
        (.start (.symbol .closeParen :: tail))
  | .statement, ls, s => ∀ tail : List Lexeme, tail.head? ≠ some (.symbol .kwElse) →
      (statement (.start (ls ++ tail))).Gives s (.start tail)
  | .conditional, ls, s => ∃ inner, ls = .symbol .kwIf :: inner ∧
      ∀ tail : List Lexeme, tail.head? ≠ some (.symbol .kwElse) →
        (conditional (.start (inner ++ tail))).Gives s (.start tail)
  | .block, ls, ss => ∀ tail, (block (.start (ls ++ tail))).Gives ss (.start tail)
  | .program, ls, ss =>
      (∀ tail, (blockBody (.start (ls ++ .symbol .closeBrace :: tail))).Gives ss
        (.start (.symbol .closeBrace :: tail))) ∧ program ls = ⟨ss, [], []⟩

theorem Flat.acceptsOperand {e : Expr} (h : Flat AcceptsOperand none ls e) : AcceptsOperand ls e := by
  obtain ⟨a, b, first, others, rfl, operand, chain, same⟩ := h
  obtain ⟨rfl, rfl⟩ := Prod.mk.inj same
  cases chain
  simpa using operand

namespace Accepts

theorem call (callee : String) {es : List Expr} (h : Accepts .argumentList ls es) :
    AcceptsOperand (.name callee :: .symbol .openParen :: (ls ++ [.symbol .closeParen]))
      (.call callee es) := by
  intro tail _
  rw [List.cons_append, List.cons_append, List.append_assoc, operand_call]
  refine (Gives.bind (h tail) fun _ => ?_).widen _
  exact (Cursor.expect_gives .closeArguments tail).map _

theorem group {e : Expr} (h : Accepts .expression ls e) :
    AcceptsOperand (.symbol .openParen :: (ls ++ [.symbol .closeParen])) e := by
  intro tail _
  rw [List.cons_append, List.append_assoc, operand_group]
  have ends := endsExpression_of_mem (b := .closeParen) (by simp) tail
  refine (Gives.bind (expression_gives h ends) fun _ => ?_).widen _
  exact (Cursor.expect_gives .closeGroup tail).map _

theorem sign (op : UnaryOp) {e : Expr} (h : AcceptsOperand ls e) :
    AcceptsOperand (.symbol op.symbol :: ls) (.unary op e) := by
  intro tail next
  rw [List.cons_append, operand_sign]
  exact ((h tail next).map _).widen _

theorem lastArgument {e : Expr} (h : Accepts .expression ls e) : Accepts .arguments ls [e] := by
  intro tail
  have ends := endsExpression_of_mem (b := .closeParen) (by simp) tail
  rw [arguments]
  refine (expression_gives h ends).bind fun _ => ?_
  exact .stay

theorem moreArguments {e : Expr} {es : List Expr} (h : Accepts .expression ls e)
    (k : Accepts .arguments rest es) : Accepts .arguments (ls ++ .symbol .comma :: rest) (e :: es) := by
  intro tail
  have ends := endsExpression_of_mem (b := .comma) (by simp) (rest ++ .symbol .closeParen :: tail)
  rw [arguments, List.append_assoc]
  refine (expression_gives h ends).bind fun _ => ?_
  exact ((k tail).map _).widen _

theorem someArguments {es : List Expr} (opens : OpensExpression ls) (h : Accepts .arguments ls es) :
    Accepts .argumentList ls es := by
  intro tail
  have going := Cursor.not_sees_of_opensExpression opens (b := .closeParen) rfl
  rw [argumentList, if_neg (going _)]
  exact h tail

theorem lastName (word : String) : Accepts .names [.name word] [word] := by
  intro slot tail
  refine (Cursor.expectName_gives slot word _).bind fun _ => ?_
  rw [moreParameters]
  exact .map .stay _

theorem moreNames (word : String) {words : List String} (h : Accepts .names ls words) :
    Accepts .names (.name word :: .symbol .comma :: ls) (word :: words) := by
  intro slot tail
  refine (Cursor.expectName_gives slot word _).bind fun _ => ?_
  rw [moreParameters]
  exact ((h .nextParameter tail).widen _).map _

theorem someNames {words : List String} (opens : ∃ word front, ls = .name word :: front)
    (h : Accepts .names ls words) : Accepts .nameList ls words := by
  intro tail
  obtain ⟨word, front, rfl⟩ := opens
  exact h .firstParameter tail

theorem declaration (word : String) {e : Expr} (h : Accepts .expression ls e) :
    Accepts .statement
      (.symbol .kwVar :: .name word :: .symbol .assign :: (ls ++ [.symbol .semicolon]))
      (.declaration word e) := by
  intro tail _
  rw [List.cons_append, statement_declaration]
  refine .widen ((Cursor.expectName_gives .variableName word _).bind fun _ => ?_) _
  refine (Cursor.expect_gives .assignment _).bind fun _ => ?_
  rw [if_pos rfl]
  exact finish_gives h .endOfDeclaration rfl _ tail

theorem assignment (word : String) {e : Expr} (opens : OpensExpression ls)
    (h : Accepts .expression ls e) :
    Accepts .statement (.name word :: .symbol .assign :: (ls ++ [.symbol .semicolon]))
      (.assignment word e) := by
  intro tail _
  have opens : OpensExpression (ls ++ [.symbol .semicolon]) := opens.append (by simp)
  have going := Cursor.not_sees_of_opensExpression opens (b := .semicolon) rfl
  rw [List.cons_append, List.cons_append, statement_assignment, Parse.assignment, if_neg (going _)]
  exact (finish_gives h .endOfAssignment rfl _ tail).widen _

theorem whileLoop {e : Expr} {ss : List Stmt} (h : Accepts .expression ls e)
    (k : Accepts .block rest ss) :
    Accepts .statement
      (.symbol .kwWhile :: .symbol .openParen :: (ls ++ .symbol .closeParen :: rest))
      (.whileLoop e ss) := by
  intro tail _
  rw [List.cons_append, List.cons_append, List.append_assoc, statement_loop, loop]
  refine .widen ((condition_gives h .whileWord (rest ++ tail)).bind fun _ => ?_) _
  exact (k tail).map _

theorem function (word : String) {words : List String} {ss : List Stmt}
    (h : Accepts .nameList ls words) (k : Accepts .block rest ss) :
    Accepts .statement
      (.symbol .kwDef :: .name word :: .symbol .openParen :: (ls ++ .symbol .closeParen :: rest))
      (.function word words ss) := by
  intro tail _
  rw [List.cons_append, List.cons_append, List.cons_append, List.append_assoc, statement_function,
    Parse.function]
  refine .widen ((Cursor.expectName_gives .functionName word _).bind fun _ => ?_) _
  refine (Cursor.expect_gives .openParameters _).bind fun _ => ?_
  rw [if_pos rfl]
  refine (h (rest ++ tail)).bind fun _ => ?_
  refine (Cursor.expect_gives .closeParameters _).bind fun _ => ?_
  rw [if_pos rfl]
  exact (k tail).map _

theorem evaluation {e : Expr} (opens : OpensExpression ls) (h : Accepts .expression ls e) :
    Accepts .statement (ls ++ [.symbol .semicolon]) (.expression e) := by
  intro tail _
  have first : OpensExpression (ls ++ ([.symbol .semicolon] ++ tail)) := opens.append (by simp)
  rw [List.append_assoc, statement_evaluated first, ← List.append_assoc]
  exact finish_gives h .endOfExpression rfl _ tail

section Conditional
variable {e : Expr} {as bs : List Stmt} {inner : Stmt} {consequent alternative : List Lexeme}

theorem ifThen (h : Accepts .expression ls e) (k : Accepts .block consequent as) :
    Accepts .conditional
      (.symbol .kwIf :: .symbol .openParen :: (ls ++ .symbol .closeParen :: consequent))
      (.ifThen e as) := by
  refine ⟨_, rfl, fun tail next => ?_⟩
  rw [List.cons_append, List.append_assoc, conditional]
  refine (condition_gives h .ifWord (consequent ++ tail)).bind fun _ => ?_
  refine (k tail).bind fun _ => ?_
  exact alternative_other next ▸ .stay

theorem ifThenElse (h : Accepts .expression ls e) (k : Accepts .block consequent as)
    (opens : ∃ front, alternative = .symbol .openBrace :: front)
    (other : Accepts .block alternative bs) :
    Accepts .conditional
      (.symbol .kwIf :: .symbol .openParen :: (ls ++ .symbol .closeParen ::
        (consequent ++ .symbol .kwElse :: alternative)))
      (.ifThenElse e as bs) := by
  obtain ⟨front, rfl⟩ := opens
  refine ⟨_, rfl, fun tail next => ?_⟩
  rw [List.cons_append, List.append_assoc, List.cons_append, List.append_assoc, conditional]
  refine (condition_gives h .ifWord _).bind fun _ => ?_
  refine (k _).bind fun _ => ?_
  change (alternative e as (.start (.symbol .kwElse :: (.symbol .openBrace :: front ++ tail)))).Gives _ _
  rw [alternative_else (by simp)]
  exact ((other tail).map _).widen _

theorem elseIf (h : Accepts .expression ls e) (k : Accepts .block consequent as)
    (other : Accepts .conditional alternative inner) :
    Accepts .conditional
      (.symbol .kwIf :: .symbol .openParen :: (ls ++ .symbol .closeParen ::
        (consequent ++ .symbol .kwElse :: alternative)))
      (.ifThenElse e as [inner]) := by
  obtain ⟨front, rfl, reads⟩ := other
  refine ⟨_, rfl, fun tail next => ?_⟩
  rw [List.cons_append, List.append_assoc, List.cons_append, List.append_assoc, conditional]
  refine (condition_gives h .ifWord _).bind fun _ => ?_
  refine (k _).bind fun _ => ?_
  change (alternative e as (.start (.symbol .kwElse :: .symbol .kwIf :: (front ++ tail)))).Gives _ _
  rw [alternative_elseIf]
  exact ((reads tail next).map _).widen _

end Conditional

theorem block {ss : List Stmt} (h : Accepts .program ls ss) :
    Accepts .block (.symbol .openBrace :: (ls ++ [.symbol .closeBrace])) ss := by
  intro tail
  rw [List.cons_append, List.append_assoc, block_braced]
  refine .widen ((h.1 tail).bind fun _ => ?_) _
  refine (Cursor.expect_gives .closeBlock tail).bind fun _ => ?_
  exact ⟨rfl, rfl⟩

theorem statement {s : Stmt} {ss : List Stmt}
    (opens : ∃ l front, ls = l :: front ∧ l.opensStatement = true)
    (next : ∀ b, (Lexeme.symbol b).opensStatement = false → rest.head? ≠ some (.symbol b))
    (h : Accepts .statement ls s) (k : Accepts .program rest ss) :
    Accepts .program (ls ++ rest) (s :: ss) := by
  obtain ⟨l, front, rfl, opens⟩ := opens
  have before (tail : List Lexeme) : (rest ++ tail).length < (l :: front ++ (rest ++ tail)).length := by
    simp only [List.length_append, List.length_cons]
    omega
  constructor
  · intro tail
    have inside : (l :: front ++ rest ++ .symbol .closeBrace :: tail).head? ≠
        some (.symbol .closeBrace) := by
      rintro ⟨⟩
      simp [Lexeme.opensStatement] at opens
    have behind : (rest ++ .symbol .closeBrace :: tail).head? ≠ some (.symbol .kwElse) := by
      cases rest with
      | nil => simp
      | cons m rest => exact next .kwElse rfl
    rw [List.append_assoc] at inside ⊢
    exact blockBody_gives_cons inside (before _) (h _ behind) (k.1 tail)
  · have whole := program_cons (before []) (h (rest ++ []) (by simpa using next .kwElse rfl))
      (by simpa using k.2)
    simpa using whole

end Accepts

theorem accepts_of_phrase {n : Nonterminal} {ls : List Lexeme} {t : n.Tree} (h : Phrase n ls t) :
    Accepts n ls t := by
  induction h with
  | integer value =>
    refine .of_operand fun tail _ => ?_
    rw [List.singleton_append, operand_integer]
    exact .move
  | decimal value =>
    refine .of_operand fun tail _ => ?_
    rw [List.singleton_append, operand_decimal]
    exact .move
  | text content =>
    refine .of_operand fun tail _ => ?_
    rw [List.singleton_append, operand_text]
    exact .move
  | identifier word =>
    refine .of_operand fun tail next => ?_
    rw [List.singleton_append, operand_name next]
    exact .move
  | call callee _ ih => exact .of_operand (Accepts.call callee ih)
  | group _ ih => exact .of_operand (Accepts.group ih)
  | sign op _ ih => exact .of_operand (Accepts.sign op ih.acceptsOperand)
  | operand l _ ih => exact ih.lift l
  | operation op _ _ left right => exact left.operation op right
  | lastArgument _ ih => exact Accepts.lastArgument ih
  | moreArguments _ _ first others => exact Accepts.moreArguments first others
  | noArguments => exact fun tail => by rw [argumentList]; exact .stay
  | someArguments h ih => exact Accepts.someArguments h.arguments_opensExpression ih
  | lastName word => exact Accepts.lastName word
  | moreNames word _ ih => exact Accepts.moreNames word ih
  | noNames => exact fun tail => .stay
  | someNames h ih => exact Accepts.someNames (by cases h <;> exact ⟨_, _, rfl⟩) ih
  | declaration word _ ih => exact Accepts.declaration word ih
  | assignment word h ih => exact Accepts.assignment word h.opensExpression ih
  | choice _ ih =>
    intro tail next
    obtain ⟨inner, rfl, reads⟩ := ih
    rw [List.cons_append, statement_conditional]
    exact (reads tail next).widen _
  | whileLoop _ _ condition body => exact Accepts.whileLoop condition body
  | function word _ _ names body => exact Accepts.function word names body
  | returnValue _ ih =>
    intro tail _
    rw [List.cons_append, statement_returned]
    exact (finish_gives ih .endOfReturn rfl _ tail).widen _
  | evaluation h ih => exact Accepts.evaluation h.opensExpression ih
  | ifThen _ _ condition consequent => exact Accepts.ifThen condition consequent
  | ifThenElse _ _ h condition consequent alternative =>
    exact Accepts.ifThenElse condition consequent (by cases h; exact ⟨_, rfl⟩) alternative
  | elseIf _ _ _ condition consequent alternative =>
    exact Accepts.elseIf condition consequent alternative
  | block _ ih => exact Accepts.block ih
  | finished => exact ⟨blockBody_gives_nil, program_nil⟩
  | statement h k ih others =>
    exact Accepts.statement h.opensStatement (fun b hb => k.program_head?_ne hb) ih others

theorem program_of_phrase {ls : List Lexeme} {ss : List Stmt} (h : Phrase .program ls ss) :
    program ls = ⟨ss, [], []⟩ :=
  (accepts_of_phrase h).2

end ScriptFrontend.Parse
