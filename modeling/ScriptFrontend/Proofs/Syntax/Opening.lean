import ScriptFrontend.Proofs.Syntax.Grammar

/-!
# How phrases start

The first lexeme tells statements, operands and closing symbols apart, and an expression never looks
like the start of an assignment.
-/
namespace ScriptFrontend

namespace Lexeme

def opensOperand : Lexeme → Bool
  | integer _ | decimal _ | text _ | name _ => true
  | symbol s => s ∈ [.openParen, .plus, .minus]

def opensStatement : Lexeme → Bool
  | symbol s => s ∈ [.kwVar, .kwIf, .kwWhile, .kwDef, .kwReturn, .openParen, .plus, .minus]
  | _ => true

def isKeyword : Lexeme → Bool
  | symbol s => s ∈ Symbol.keywords
  | _ => false

theorem isKeyword_of_opensOperand {l : Lexeme} (h : l.opensOperand = true) :
    l.isKeyword = false := by
  cases l with
  | symbol s => cases s <;> revert h <;> decide
  | _ => rfl

theorem opensStatement_of_opensOperand {l : Lexeme} (h : l.opensOperand = true) :
    l.opensStatement = true := by
  cases l with
  | symbol s => cases s <;> revert h <;> decide
  | _ => rfl

theorem opensOperand_sign (op : UnaryOp) : (symbol op.symbol).opensOperand = true := by
  cases op <;> rfl

theorem symbol_of_opensOperand {b : Symbol} (h : (symbol b).opensOperand = true) :
    b = .openParen ∨ ∃ op : UnaryOp, b = op.symbol := by
  cases b with
  | openParen => exact .inl rfl
  | plus => exact .inr ⟨.plus, rfl⟩
  | minus => exact .inr ⟨.negate, rfl⟩
  | _ => exact absurd h (by decide)

end Lexeme

/-- An operand starts here, and the lexeme behind its first one is no `=`. -/
def OpensExpression (ls : List Lexeme) : Prop :=
  ∃ l rest, ls = l :: rest ∧ l.opensOperand = true ∧ rest.head? ≠ some (.symbol .assign)

namespace OpensExpression
variable {ls more : List Lexeme}

theorem append (h : OpensExpression ls) (k : more.head? ≠ some (.symbol .assign)) :
    OpensExpression (ls ++ more) := by
  obtain ⟨l, rest, rfl, opens, next⟩ := h
  refine ⟨l, rest ++ more, rfl, opens, ?_⟩
  cases rest with
  | nil => exact k
  | cons m rest => exact next

theorem head?_ne (h : OpensExpression ls) {s : Symbol}
    (hs : (Lexeme.symbol s).opensOperand = false) : ls.head? ≠ some (.symbol s) := by
  obtain ⟨l, rest, rfl, opens, -⟩ := h
  rintro ⟨⟩
  simp [hs] at opens

theorem behind (h : OpensExpression ls) {l : Lexeme} (hl : l.opensOperand = true) :
    OpensExpression (l :: ls) :=
  ⟨l, ls, rfl, hl, h.head?_ne rfl⟩

end OpensExpression

theorem BinaryOp.symbol_ne_assign (op : BinaryOp) : op.symbol ≠ .assign := by
  cases op <;> decide

namespace Phrase

/-- What holds of the rows of one nonterminal because of how they start. -/
def Opening : Nonterminal → List Lexeme → Prop
  | .ranked _, ls | .arguments, ls => OpensExpression ls
  | _, _ => True

theorem opening {n : Nonterminal} {ls : List Lexeme} {t : n.Tree} (h : Phrase n ls t) :
    Opening n ls := by
  induction h with
  | integer value => exact ⟨_, _, rfl, rfl, nofun⟩
  | decimal value => exact ⟨_, _, rfl, rfl, nofun⟩
  | text content => exact ⟨_, _, rfl, rfl, nofun⟩
  | identifier word => exact ⟨_, _, rfl, rfl, nofun⟩
  | call callee _ _ => exact ⟨_, _, rfl, rfl, nofun⟩
  | group _ ih => exact OpensExpression.behind (ih.append (by simp)) rfl
  | sign op _ ih => exact OpensExpression.behind ih (Lexeme.opensOperand_sign op)
  | operand l _ ih => exact ih
  | operation op _ _ ih _ => exact ih.append (by simpa using op.symbol_ne_assign)
  | lastArgument _ ih => exact ih
  | moreArguments _ _ ih _ => exact ih.append (by simp)
  | _ => trivial

theorem opensExpression {r : Option Level} {ls : List Lexeme} {e : Expr}
    (h : Phrase (.ranked r) ls e) : OpensExpression ls :=
  h.opening

theorem arguments_opensExpression {ls : List Lexeme} {es : List Expr}
    (h : Phrase .arguments ls es) : OpensExpression ls :=
  h.opening

theorem opensStatement {ls : List Lexeme} {s : Stmt} (h : Phrase .statement ls s) :
    ∃ l rest, ls = l :: rest ∧ l.opensStatement = true := by
  cases h with
  | choice inner => cases inner <;> exact ⟨_, _, rfl, rfl⟩
  | evaluation value =>
    obtain ⟨l, rest, rfl, opens, -⟩ := value.opensExpression
    exact ⟨l, _, rfl, Lexeme.opensStatement_of_opensOperand opens⟩
  | _ => exact ⟨_, _, rfl, rfl⟩

theorem statement_ne_nil {s : Stmt} : ¬Phrase .statement [] s := by
  intro h
  obtain ⟨l, rest, empty, -⟩ := h.opensStatement
  cases empty

/-- No program and no statement of a block starts with a given symbol that opens no statement. -/
theorem program_head?_ne {ls : List Lexeme} {ss : List Stmt} (h : Phrase .program ls ss)
    {s : Symbol} (hs : (Lexeme.symbol s).opensStatement = false) :
    ls.head? ≠ some (.symbol s) := by
  cases h with
  | finished => nofun
  | statement first _ =>
    obtain ⟨l, rest, rfl, opens⟩ := first.opensStatement
    rintro ⟨⟩
    simp [hs] at opens

theorem append_head?_ne {ls rest : List Lexeme} {ss : List Stmt} (h : Phrase .program ls ss)
    {s : Symbol} (hs : (Lexeme.symbol s).opensStatement = false)
    (next : rest.head? ≠ some (.symbol s)) : (ls ++ rest).head? ≠ some (.symbol s) := by
  cases ls with
  | nil => exact next
  | cons l ls => exact h.program_head?_ne hs

end Phrase
end ScriptFrontend
