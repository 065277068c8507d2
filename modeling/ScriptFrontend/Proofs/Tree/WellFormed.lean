import ScriptFrontend.Proofs.Decimal.Unsigned
import ScriptFrontend.Proofs.Writing.Writer
import ScriptFrontend.Tree.Equality

/-!
# Well-formed trees

What a tree may hold that was read from a text: numbers without a sign, texts without a quote, names
that a text can spell, and no block that stands alone. In the tree of a faulty text a declaration may
lack its name and then has the substitute for its value, and a function may lack its name and then
has neither parameters nor a body.
-/
namespace ScriptFrontend

def Literal.WellFormed : Literal → Prop
  | integer value => 0 ≤ value
  | decimal value => 0 ≤ value ∧ value.isNaN = false
  | text content => '"' ∉ content.toList

mutual

def Expr.WellFormed : Expr → Prop
  | .literal value => value.WellFormed
  | .identifier word => IsName word
  | .binary _ left right => left.WellFormed ∧ right.WellFormed
  | .unary _ operand => operand.WellFormed
  | .call callee es => IsName callee ∧ Expr.AllWellFormed es

def Expr.AllWellFormed : List Expr → Prop
  | [] => True
  | e :: es => e.WellFormed ∧ Expr.AllWellFormed es

end

mutual

def Stmt.WellFormed (faulty : Prop) : Stmt → Prop
  | .declaration word e =>
    IsName word ∧ e.WellFormed ∨ faulty ∧ word = "" ∧ e = .placeholder
  | .assignment word e => IsName word ∧ e.WellFormed
  | .block _ => False
  | .ifThen e body | .whileLoop e body => e.WellFormed ∧ Stmt.AllWellFormed faulty body
  | .ifThenElse e consequent alternative =>
    e.WellFormed ∧ Stmt.AllWellFormed faulty consequent ∧ Stmt.AllWellFormed faulty alternative
  | .function word names body =>
    IsName word ∧ (∀ name ∈ names, IsName name) ∧ Stmt.AllWellFormed faulty body ∨
      faulty ∧ word = "" ∧ names = [] ∧ body = []
  | .returnValue e | .expression e => e.WellFormed

def Stmt.AllWellFormed (faulty : Prop) : List Stmt → Prop
  | [] => True
  | s :: ss => s.WellFormed faulty ∧ Stmt.AllWellFormed faulty ss

end

def Program.WellFormed (faulty : Prop) (p : Program) : Prop := Stmt.AllWellFormed faulty p.statements

theorem Expr.placeholder_wellFormed : Expr.placeholder.WellFormed := Int.le_refl 0

/-! Faults found later only allow more -/

section Faults
variable {p q : Prop}

mutual

theorem Stmt.WellFormed.mono (h : p → q) : ∀ s : Stmt, s.WellFormed p → s.WellFormed q
  | .declaration _ _, k => k.imp_right fun substitute => ⟨h substitute.1, substitute.2⟩
  | .assignment _ _, k => k
  | .block _, k => k
  | .ifThen _ body, k => ⟨k.1, Stmt.AllWellFormed.mono h body k.2⟩
  | .ifThenElse _ consequent alternative, k =>
    ⟨k.1, Stmt.AllWellFormed.mono h consequent k.2.1, Stmt.AllWellFormed.mono h alternative k.2.2⟩
  | .whileLoop _ body, k => ⟨k.1, Stmt.AllWellFormed.mono h body k.2⟩
  | .function _ _ body, k =>
    k.imp (fun named => ⟨named.1, named.2.1, Stmt.AllWellFormed.mono h body named.2.2⟩)
      fun substitute => ⟨h substitute.1, substitute.2⟩
  | .returnValue _, k => k
  | .expression _, k => k

theorem Stmt.AllWellFormed.mono (h : p → q) :
    ∀ ss : List Stmt, Stmt.AllWellFormed p ss → Stmt.AllWellFormed q ss
  | [], _ => trivial
  | s :: ss, k => ⟨Stmt.WellFormed.mono h s k.1, Stmt.AllWellFormed.mono h ss k.2⟩

end
end Faults

/-! Well-formed trees are equal to themselves -/

theorem Literal.same_self {value : Literal} (h : value.WellFormed) : value.same value = true := by
  cases value with
  | integer value => exact decide_eq_true rfl
  | decimal value => exact Decimal.beq_self_of_isNaN h.2
  | text content => exact decide_eq_true rfl

mutual

theorem Expr.same_self : ∀ e : Expr, e.WellFormed → e.same e = true
  | .literal _, h => by simp [Expr.same, Literal.same_self h]
  | .identifier _, _ => by simp [Expr.same]
  | .binary _ left right, h => by simp [Expr.same, Expr.same_self left h.1, Expr.same_self right h.2]
  | .unary _ operand, h => by simp [Expr.same, Expr.same_self operand h]
  | .call _ es, h => by simp [Expr.same, Expr.sameAll_self es h.2]

theorem Expr.sameAll_self : ∀ es : List Expr, Expr.AllWellFormed es → Expr.sameAll es es = true
  | [], _ => rfl
  | e :: es, h => by simp [Expr.sameAll, Expr.same_self e h.1, Expr.sameAll_self es h.2]

end

variable {faulty : Prop}

mutual

theorem Stmt.same_self : ∀ s : Stmt, s.WellFormed faulty → s.same s = true
  | .declaration _ e, h => by
    have value : e.WellFormed := by
      rcases h with ⟨-, value⟩ | ⟨-, -, rfl⟩
      · exact value
      · exact Expr.placeholder_wellFormed
    simp [Stmt.same, Expr.same_self e value]
  | .assignment _ e, h => by simp [Stmt.same, Expr.same_self e h.2]
  | .block _, h => h.elim
  | .ifThen e body, h => by simp [Stmt.same, Expr.same_self e h.1, Stmt.sameAll_self body h.2]
  | .ifThenElse e consequent alternative, h => by
    simp [Stmt.same, Expr.same_self e h.1, Stmt.sameAll_self consequent h.2.1,
      Stmt.sameAll_self alternative h.2.2]
  | .whileLoop e body, h => by simp [Stmt.same, Expr.same_self e h.1, Stmt.sameAll_self body h.2]
  | .function _ _ body, h => by
    have inner : Stmt.AllWellFormed faulty body := by
      rcases h with ⟨-, -, inner⟩ | ⟨-, -, -, rfl⟩
      · exact inner
      · trivial
    simp [Stmt.same, Stmt.sameAll_self body inner]
  | .returnValue e, h => by simp [Stmt.same, Expr.same_self e h]
  | .expression e, h => by simp [Stmt.same, Expr.same_self e h]

theorem Stmt.sameAll_self : ∀ ss : List Stmt, Stmt.AllWellFormed faulty ss → Stmt.sameAll ss ss = true
  | [], _ => rfl
  | s :: ss, h => by simp [Stmt.sameAll, Stmt.same_self s h.1, Stmt.sameAll_self ss h.2]

end

end ScriptFrontend
