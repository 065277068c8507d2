import ScriptFrontend.Proofs.Syntax.Boundary
import ScriptFrontend.Proofs.Syntax.Echo
import ScriptFrontend.Proofs.Syntax.Progress

/-!
# A faulty statement in front of a program

A fault inside an expression takes the reader past the semicolon of its statement, and then the
routines that are still pending miss their closing symbols. Each of them skips on to the next
boundary. So statements of the program behind the semicolon are lost, unless that program is empty
or a boundary protects it. A fault outside of expressions costs no more than its own statement.
-/
namespace ScriptFrontend
namespace Phrase

/-- What holds of the rows of expressions because of what they consist of. -/
def Inside : Nonterminal → List Lexeme → Prop
  | .ranked _, ls | .arguments, ls | .argumentList, ls => Parse.Plain ls
  | _, _ => True

theorem inside {n : Nonterminal} {ls : List Lexeme} {t : n.Tree} (h : Phrase n ls t) :
    Inside n ls := by
  induction h with
  | integer value => exact Parse.Plain.nil.cons rfl
  | decimal value => exact Parse.Plain.nil.cons rfl
  | text content => exact Parse.Plain.nil.cons rfl
  | identifier word => exact Parse.Plain.nil.cons rfl
  | call callee _ ih => exact ((Parse.Plain.append ih (Parse.Plain.nil.cons rfl)).cons rfl).cons rfl
  | group _ ih => exact (Parse.Plain.append ih (Parse.Plain.nil.cons rfl)).cons rfl
  | sign op _ ih => exact Parse.Plain.cons ih (by cases op <;> rfl)
  | operand l _ ih => exact ih
  | operation op _ _ ih ih' =>
    exact Parse.Plain.append ih (Parse.Plain.cons ih' (Parse.isBoundary_operator op))
  | lastArgument _ ih => exact ih
  | moreArguments _ _ ih ih' => exact Parse.Plain.append ih (Parse.Plain.cons ih' rfl)
  | noArguments => exact Parse.Plain.nil
  | someArguments _ ih => exact ih
  | _ => trivial

theorem plain {r : Option Level} {ls : List Lexeme} {e : Expr} (h : Phrase (.ranked r) ls e) :
    Parse.Plain ls :=
  h.inside

end Phrase

namespace Parse
variable {row rest p q : List Lexeme} {s : Stmt} {ss others : List Stmt} {n : Nat}

/-- An expression, possibly assigned to a name. -/
inductive ExpressionRow : List Lexeme → Prop where
  | evaluation {row : List Lexeme} {e : Expr} : Phrase .expression row e → ExpressionRow row
  | assignment {row : List Lexeme} {e : Expr} (word : String) :
      Phrase .expression row e → ExpressionRow (.name word :: .symbol .assign :: row)

theorem ExpressionRow.plain (h : ExpressionRow row) : Plain row := by
  cases h with
  | evaluation phrase => exact phrase.plain
  | assignment word phrase => exact (phrase.plain.cons rfl).cons rfl

theorem atBoundary_cons {l : Lexeme} (stops : isBoundary l = true) (other : l ≠ .symbol .semicolon)
    (rest : List Lexeme) : AtBoundary (l :: rest) := by
  rintro m ⟨⟩
  exact ⟨stops, other⟩

/-- A program that no boundary protects starts with an expression and a semicolon. -/
theorem atBoundary_or_row (h : Phrase .program p ss) :
    AtBoundary p ∨ ∃ row rest s others, ExpressionRow row ∧ p = row ++ .symbol .semicolon :: rest ∧
      ss = s :: others ∧ Phrase .program rest others := by
  cases h with
  | finished => exact .inl nofun
  | @statement ls more s others first behind =>
    cases first with
    | choice inner => cases inner <;> exact .inl (atBoundary_cons rfl (by simp) _)
    | assignment word phrase =>
      exact .inr ⟨_, more, _, others, .assignment word phrase, by simp, rfl, behind⟩
    | evaluation phrase => exact .inr ⟨_, more, _, others, .evaluation phrase, by simp, rfl, behind⟩
    | _ => exact .inl (atBoundary_cons rfl (by simp) _)

/-- The chain of a sign, read as an operator, is the rest of the expression that the sign starts. -/
theorem chain_sign_next {op : BinaryOp} {sign : UnaryOp} (same : op.symbol = sign.symbol)
    (rest : List Lexeme) :
    (chain (.start (.symbol op.symbol :: rest))).next =
      (expression (.start (.symbol op.symbol :: rest))).next := by
  rw [chain_operator, same, expression, operand_sign]
  rfl

/-- Where an expression starts with an operator, its end is the end of the operator's chain. -/
theorem ExpressionRow.chain_next (h : ExpressionRow row) {op : BinaryOp}
    (head : (row ++ .symbol .semicolon :: rest).head? = some (.symbol op.symbol)) :
    (chain (.start (row ++ .symbol .semicolon :: rest))).next =
      .start (.symbol .semicolon :: rest) := by
  cases h with
  | assignment word phrase => cases head
  | @evaluation row e phrase =>
    obtain ⟨l, more, rfl, opens, -⟩ := phrase.opensExpression
    obtain rfl : l = .symbol op.symbol := Option.some.inj head
    rcases Lexeme.symbol_of_opensOperand opens with paren | ⟨sign, same⟩
    · cases op <;> cases paren
    · have ends := endsExpression_of_mem (b := .semicolon) (by simp) rest
      rw [List.cons_append, chain_sign_next same, ← List.cons_append]
      exact (expression_gives (accepts_of_phrase phrase) ends).2

/-- The program goes on here with its statements behind the first `n`. -/
def Left (ss : List Stmt) (n : Nat) (p : List Lexeme) : Prop :=
  n ≤ ss.length ∧ Phrase .program p (ss.drop n)

theorem Left.next (cut : ss.drop n = s :: others) (phrase : Phrase .program p others) :
    Left ss (n + 1) p := by
  have count : (ss.drop n).length = others.length + 1 := congrArg List.length cut
  rw [List.length_drop] at count
  refine ⟨by omega, ?_⟩
  rw [List.drop_add_one_eq_tail_drop, cut]
  exact phrase

/-- Where a skip ends that starts in front of statements of the program. -/
theorem Left.skip (h : Left ss n p) :
    (AtBoundary p ∧ resynchronize p = p) ∨ Left ss (n + 1) (resynchronize p) := by
  rcases atBoundary_or_row h.2 with boundary | ⟨row, rest, s, others, expr, rfl, cut, behind⟩
  · exact .inl ⟨boundary, boundary.resynchronize⟩
  · rw [resynchronize_plain expr.plain]
    exact .inr (.next cut behind)

theorem Left.chain_next (h : Left ss n p) {op : BinaryOp} (head : p.head? = some (.symbol op.symbol)) :
    ∃ rest, (chain (.start p)).next = .start (.symbol .semicolon :: rest) ∧ Left ss (n + 1) rest := by
  rcases atBoundary_or_row h.2 with boundary | ⟨row, rest, s, others, expr, rfl, cut, behind⟩
  · exact absurd head (boundary.head?_ne (isBoundary_operator op))
  · exact ⟨rest, expr.chain_next head, .next cut behind⟩

/-- Some statements of the program are lost. -/
def Overrun (ss : List Stmt) (p : List Lexeme) : Prop :=
  ∃ n, Left ss (n + 1) p

/-- Where a reader in panic may be while its expression goes on. -/
def Astray (ss : List Stmt) (p : List Lexeme) : Prop :=
  (∃ n, Left ss n p ∧ (n = 0 → ¬AtBoundary p)) ∨ ∃ q, p = .symbol .semicolon :: q ∧ Overrun ss q

namespace Astray

theorem skip (h : Astray ss p) : Overrun ss (resynchronize p) := by
  rcases h with ⟨n, left, unprotected⟩ | ⟨q, rfl, lost⟩
  · rcases left.skip with ⟨boundary, stays⟩ | next
    · cases n with
      | zero => exact absurd boundary (unprotected rfl)
      | succ n => exact ⟨n, stays.symm ▸ left⟩
    · exact ⟨n, next⟩
  · exact lost

theorem of_overrun (h : Overrun ss p) : Astray ss p := by
  obtain ⟨n, left⟩ := h
  exact .inl ⟨n + 1, left, nofun⟩

theorem head?_ne (h : Astray ss p) {b : Symbol} (closed : (Lexeme.symbol b).opensStatement = false)
    (other : b ≠ .semicolon) : p.head? ≠ some (.symbol b) := by
  rcases h with ⟨n, left, -⟩ | ⟨q, rfl, -⟩
  · exact left.2.program_head?_ne closed
  · simpa using other.symm

theorem chain_stranded {c : Cursor} {f : Fault} (panics : c.Stranded f (Astray ss)) :
    (chain c).next.Stranded f (Astray ss) := by
  have echo : (chain c).next.Echoes [f] (chain (.start c.pending)).next :=
    chain_echoes ⟨panics.1, panics.2.1, rfl⟩
  refine ⟨echo.1, echo.2.1, ?_⟩
  rw [echo.2.2]
  by_cases operator : ∃ op : BinaryOp, c.pending.head? = some (.symbol op.symbol)
  · obtain ⟨op, head⟩ := operator
    rcases panics.2.2 with ⟨n, left, -⟩ | ⟨q, cut, -⟩
    · obtain ⟨rest, next, lost⟩ := left.chain_next head
      rw [next]
      exact .inr ⟨rest, rfl, n, lost⟩
    · rw [cut] at head
      cases op <;> cases head
  · rw [chain_other (not_exists.1 operator)]
    exact panics.2.2

theorem finish_stranded {c : Cursor} {f : Fault} {slot : SymbolSlot}
    (last : slot.symbol = .semicolon) (panics : c.Stranded f (Astray ss)) :
    (c.expect slot).next.Stranded f (Overrun ss) := by
  rcases panics.2.2 with ⟨n, left, -⟩ | ⟨q, cut, lost⟩
  · have missing : c.pending.head? ≠ some (.symbol slot.symbol) := by
      rw [last]
      exact left.2.program_head?_ne rfl
    exact panics.expect_missing missing panics.2.2.skip
  · rw [Cursor.expect_found (last ▸ cut)]
    exact ⟨panics.1, panics.2.1, lost⟩

end Astray

theorem astray_haven (h : Phrase .program rest ss) (unprotected : ¬AtBoundary rest) :
    Haven rest (Astray ss) (Overrun ss) where
  start := .inl ⟨0, ⟨Nat.zero_le _, h⟩, fun _ => unprotected⟩
  comma astray := astray.head?_ne rfl (by decide)
  chain := Astray.chain_stranded
  close := by
    intro c f slot closes panics
    have missing : c.pending.head? ≠ some (.symbol slot.symbol) := by
      rw [closes]
      exact panics.2.2.head?_ne rfl (by decide)
    exact panics.expect_missing missing (.of_overrun panics.2.2.skip)
  finish := Astray.finish_stranded

/-- A faulty statement has one fault, and it costs statements of the program behind it exactly if the
fault is inside an expression and no boundary protects the program. -/
theorem statement_before_program (simple : SimpleRow row)
    (faulty : ¬Grammatical (row ++ [.symbol .semicolon])) (h : Phrase .program rest ss) :
    let t := (statement (.start (row ++ .symbol .semicolon :: rest))).next
    ∃ f n, t.faults = [f] ∧ rest.length < f.rest.length ∧ Left ss n t.pending ∧
      (n = 0 ↔ f.cause.isInner = false ∨ AtBoundary rest) := by
  intro t
  have kept {f : Fault} (faults : t.faults = [f]) (early : rest.length < f.rest.length)
      (place : t.pending = rest) (safe : f.cause.isInner = false ∨ AtBoundary rest) :
      ∃ f n, t.faults = [f] ∧ rest.length < f.rest.length ∧ Left ss n t.pending ∧
        (n = 0 ↔ f.cause.isInner = false ∨ AtBoundary rest) := by
    refine ⟨f, 0, faults, early, ⟨Nat.zero_le _, ?_⟩, by simp [safe]⟩
    rw [place]
    exact h
  by_cases boundary : AtBoundary rest
  · rcases simple.ends boundary.haven with calm | ⟨f, early, -, faults, place⟩
    · exact absurd (grammatical_of_calm calm) faulty
    · exact kept faults early (by simpa using place) (.inr boundary)
  · rcases simple.ends (astray_haven h boundary) with calm | ⟨f, early, -, faults, place⟩
    · exact absurd (grammatical_of_calm calm) faulty
    · cases inner : f.cause.isInner with
      | false => exact kept faults early (by simpa [inner] using place) (.inl inner)
      | true =>
        obtain ⟨n, left⟩ : Overrun ss t.pending := by simpa [inner] using place
        exact ⟨f, n + 1, faults, early, left, by simp [inner, boundary]⟩

theorem program_before_program (simple : SimpleRow row)
    (faulty : ¬Grammatical (row ++ [.symbol .semicolon])) (h : Phrase .program rest ss) :
    ∃ s f n, program (row ++ .symbol .semicolon :: rest) = ⟨s :: ss.drop n, [f], []⟩ ∧
      rest.length < f.rest.length ∧ n ≤ ss.length ∧ (n = 0 ↔ f.cause.isInner = false ∨ AtBoundary rest) := by
  obtain ⟨f, n, faults, early, ⟨bound, left⟩, exactly⟩ := statement_before_program simple faulty h
  have nonempty : row ++ .symbol .semicolon :: rest ≠ [] := by simp
  have behind : afterStatement (row ++ .symbol .semicolon :: rest) =
      (statement (.start (row ++ .symbol .semicolon :: rest))).next.pending :=
    afterStatement_eq rfl (statement_length_lt nonempty)
  have same : program (row ++ .symbol .semicolon :: rest) =
      ⟨(statement (.start (row ++ .symbol .semicolon :: rest))).value :: ss.drop n, [f], []⟩ := by
    rw [program_of_ne_nil nonempty, behind, faults, program_of_phrase left]
    rfl
  exact ⟨_, f, n, same, early, bound, exactly⟩

end Parse

/-- The row has no end of the input in it. The fault is in the statement, and the statements of the
program behind it are all kept exactly if the fault is outside of expressions or the program is
empty or starts with a boundary. -/
theorem faulty_statement_loses {row behind : List Token} {semicolon : Token} {ss : List Stmt}
    (running : ∀ t ∈ row, t.kind ≠ none) (simple : Parse.SimpleRow (Token.lexemes row))
    (last : semicolon.kind = some (.symbol .semicolon))
    (faulty : ¬Grammatical (Token.lexemes (row ++ [semicolon])))
    (h : Phrase .program (Token.lexemes behind) ss) (source : Option String) :
    let tokens := row ++ semicolon :: behind
    ∃ (s : Stmt) (f : Parse.Fault) (n : Nat),
      let d := f.diagnostic tokens (Token.lexemes tokens).length (source.map Text.lines)
      parseTokens tokens source = ⟨⟨s :: ss.drop n⟩, [d]⟩ ∧
        (∃ t ∈ row ++ [semicolon], d.location = t.location) ∧ n ≤ ss.length ∧
        (n = 0 ↔ f.cause.isInner = false ∨ Parse.AtBoundary (Token.lexemes behind)) := by
  intro tokens
  have cut : tokens = row ++ [semicolon] ++ behind := by simp [tokens]
  have whole : Token.lexemes tokens = Token.lexemes row ++ .symbol .semicolon :: Token.lexemes behind :=
    Token.lexemes_append_cons running last behind
  rw [Token.lexemes_concat running last] at faulty
  obtain ⟨s, f, n, same, early, bound, exactly⟩ := Parse.program_before_program simple faulty h
  rw [← whole] at same
  refine ⟨s, f, n, ?_, ?_, bound, exactly⟩
  · rw [parseTokens_eq, same]
    rfl
  · have index : (Token.lexemes tokens).length - f.rest.length < (row ++ [semicolon]).length := by
      rw [whole, List.length_append, List.length_cons, Token.length_lexemes running,
        List.length_append, List.length_singleton]
      omega
    rw [Parse.Fault.diagnostic, cut]
    rw [cut] at index
    exact Token.exists_mem_locationAt index behind

/-- Up to a semicolon, `y = * 2`. -/
def brokenAssignment : List Token :=
  [⟨some (.name "y"), ⟨1, 1⟩⟩, ⟨some (.symbol .assign), ⟨1, 3⟩⟩, ⟨some (.symbol .star), ⟨1, 5⟩⟩,
    ⟨some (.integer 2), ⟨1, 7⟩⟩]

/-- On the next line, `x = 1;`. -/
def nextAssignment : List Token :=
  [⟨some (.name "x"), ⟨2, 1⟩⟩, ⟨some (.symbol .assign), ⟨2, 3⟩⟩, ⟨some (.integer 1), ⟨2, 5⟩⟩,
    ⟨some (.symbol .semicolon), ⟨2, 6⟩⟩]

theorem brokenAssignment_refused :
    ¬Grammatical (Token.lexemes (brokenAssignment ++ [⟨some (.symbol .semicolon), ⟨1, 8⟩⟩])) :=
  Parse.not_grammatical (by decide +kernel)

theorem nextAssignment_phrase :
    Phrase .program (Token.lexemes nextAssignment) [.assignment "x" (.literal (.integer 1))] :=
  .statement (.assignment "x" ((Phrase.integer 1).ranked _)) .finished

theorem faulty_statement_of_brokenAssignment :
    let tokens := brokenAssignment ++ ⟨some (.symbol .semicolon), ⟨1, 8⟩⟩ :: nextAssignment
    ∃ (s : Stmt) (n : Nat) (d : Diagnostic), parseTokens tokens none =
        ⟨⟨s :: [Stmt.assignment "x" (.literal (.integer 1))].drop n⟩, [d]⟩ ∧
      ∃ t ∈ brokenAssignment ++ [⟨some (.symbol .semicolon), ⟨1, 8⟩⟩], d.location = t.location := by
  intro tokens
  have running : ∀ t ∈ brokenAssignment, t.kind ≠ none := by simp [brokenAssignment]
  have simple : Parse.SimpleRow (Token.lexemes brokenAssignment) :=
    .plain (by simp [Parse.Plain, brokenAssignment, Token.lexemes, Parse.isBoundary])
  have last : (⟨some (.symbol .semicolon), ⟨1, 8⟩⟩ : Token).kind = some (.symbol .semicolon) := rfl
  obtain ⟨s, f, n, same, place, -⟩ := faulty_statement_loses running simple last
    brokenAssignment_refused nextAssignment_phrase none
  exact ⟨s, n, _, same, place⟩

def Stmt.assigns (word : String) : Stmt → Bool
  | .assignment other _ => other = word
  | _ => false

/-- The statement behind `y = * 2;` is lost, although nothing is wrong with it. -/
theorem statements_not_always_kept :
    ¬∀ (row behind : List Token) (semicolon : Token) (ss : List Stmt),
      (∀ t ∈ row, ∃ l, t.kind = some l ∧ l.isKeyword = false ∧ l ≠ .symbol .semicolon ∧
        l ≠ .symbol .openBrace ∧ l ≠ .symbol .closeBrace) →
      semicolon.kind = some (.symbol .semicolon) →
      ¬Grammatical (Token.lexemes (row ++ [semicolon])) →
      Phrase .program (Token.lexemes behind) ss →
      ss <:+ (parseTokens (row ++ semicolon :: behind) none).program.statements := by
  intro kept
  have plain : ∀ t ∈ brokenAssignment, ∃ l, t.kind = some l ∧ l.isKeyword = false ∧
      l ≠ .symbol .semicolon ∧ l ≠ .symbol .openBrace ∧ l ≠ .symbol .closeBrace := by
    simp [brokenAssignment, Lexeme.isKeyword, Symbol.keywords]
  have found := (kept brokenAssignment nextAssignment ⟨some (.symbol .semicolon), ⟨1, 8⟩⟩ _ plain rfl
    brokenAssignment_refused nextAssignment_phrase).mem List.mem_cons_self
  have others : (parseTokens (brokenAssignment ++ ⟨some (.symbol .semicolon), ⟨1, 8⟩⟩ ::
      nextAssignment) none).program.statements.all (Stmt.assigns "y") = true := by decide +kernel
  have same : Stmt.assigns "y" (.assignment "x" (.literal (.integer 1))) = true :=
    List.all_eq_true.1 others _ found
  exact absurd same (by decide)

end ScriptFrontend
