import ScriptFrontend.Parse.Expression
import ScriptFrontend.Proofs.Syntax.Grammar

/-!
# Flat operations and levels

An operation read flat, as an operand and a chain of operators with operands, is the same row of
lexemes as one derived level by level. Fusing the chain along a level turns operands of the level
into operations of it, and every operation of a level comes from exactly such a chain. What counts
as an operand is a parameter: it may be a phrase, or a row that a reader accepts.
-/
namespace ScriptFrontend.Parse

inductive Chain (P : List Lexeme → Expr → Prop) : List Lexeme → List (BinaryOp × Expr) → Prop where
  | nil : Chain P [] []
  | cons {op : BinaryOp} {ls more : List Lexeme} {e : Expr} {others : List (BinaryOp × Expr)} :
      P ls e → Chain P more others → Chain P (.symbol op.symbol :: (ls ++ more)) ((op, e) :: others)

theorem Chain.append {P : List Lexeme → Expr → Prop} {a b : List Lexeme}
    {xs ys : List (BinaryOp × Expr)} (h : Chain P a xs) (k : Chain P b ys) :
    Chain P (a ++ b) (xs ++ ys) := by
  induction h with
  | nil => exact k
  | cons operand _ ih => simpa using Chain.cons operand ih

section Fuse
variable {l : Level} {op : BinaryOp} {e f g : Expr} {xs ys : List (BinaryOp × Expr)}

@[simp] theorem fuse_nil (l : Level) (f : Expr) : fuse l f [] = (f, []) := rfl

theorem fuse_cons_same (h : op.level = l) :
    fuse l f ((op, e) :: xs) = fuse l (.binary op f e) xs := by
  simp [fuse, h]

theorem fuse_cons_other (h : op.level ≠ l) :
    fuse l f ((op, e) :: xs) = (f, (op, (fuse l e xs).1) :: (fuse l e xs).2) := by
  simp [fuse, h]

/-- Fusing uses up the operators of the level and no others. -/
theorem fuse_operators (l : Level) (f : Expr) (xs : List (BinaryOp × Expr)) :
    (fuse l f xs).2.map Prod.fst = (xs.map Prod.fst).filter (fun op => op.level ≠ l) := by
  induction xs generalizing f with
  | nil => rfl
  | cons x xs ih =>
    obtain ⟨op, e⟩ := x
    by_cases h : op.level = l
    · simp [fuse_cons_same h, ih, h]
    · simp [fuse_cons_other h, ih, h]

/-- An operator of another level keeps apart what stands on its two sides. -/
theorem fuse_append_other (h : op.level ≠ l) :
    fuse l f (xs ++ (op, g) :: ys) =
      ((fuse l f xs).1, (fuse l f xs).2 ++ (op, (fuse l g ys).1) :: (fuse l g ys).2) := by
  induction xs generalizing f with
  | nil => simp [fuse_cons_other h]
  | cons x xs ih =>
    obtain ⟨op', e⟩ := x
    by_cases h' : op'.level = l
    · simp [fuse_cons_same h', ih]
    · simp [fuse_cons_other h', ih]

/-- A chain of one level is grouped to the left, so its last operator comes out on top. -/
theorem fuse_append_same (h : op.level = l) (all : fuse l f xs = (e, [])) :
    fuse l f (xs ++ [(op, g)]) = (.binary op e g, []) := by
  induction xs generalizing f with
  | nil =>
    obtain ⟨rfl, -⟩ := Prod.mk.inj all
    simp [fuse_cons_same h]
  | cons x xs ih =>
    obtain ⟨op', e'⟩ := x
    by_cases h' : op'.level = l
    · rw [fuse_cons_same h'] at all
      simpa [fuse_cons_same h'] using ih all
    · simp [fuse_cons_other h'] at all

end Fuse

def levelsTo : Option Level → List Level
  | none => []
  | some .factor => [.factor]
  | some .term => [.factor, .term]
  | some .comparison => [.factor, .term, .comparison]
  | some .conjunction => [.factor, .term, .comparison, .conjunction]
  | some .disjunction => Level.all

theorem levelsTo_some (l : Level) : levelsTo (some l) = levelsTo l.tighter ++ [l] := by
  cases l <;> rfl

theorem not_mem_levelsTo_tighter (l : Level) : l ∉ levelsTo l.tighter := by
  cases l <;> decide

theorem mem_levelsTo_disjunction (l : Level) : l ∈ levelsTo (some .disjunction) := by
  cases l <;> decide

/-- A flat operation, fused along the levels up to a rank. -/
def fuseTo (r : Option Level) (first : Expr) (others : List (BinaryOp × Expr)) :
    Expr × List (BinaryOp × Expr) :=
  (levelsTo r).foldl (fun acc level => fuse level acc.1 acc.2) (first, others)

theorem fuseTo_some (l : Level) (first : Expr) (others : List (BinaryOp × Expr)) :
    fuseTo (some l) first others =
      fuse l (fuseTo l.tighter first others).1 (fuseTo l.tighter first others).2 := by
  simp only [fuseTo, levelsTo_some, List.foldl_append, List.foldl_cons, List.foldl_nil]

theorem assemble_eq_fuseTo (first : Expr) (others : List (BinaryOp × Expr)) :
    assemble first others = (fuseTo (some .disjunction) first others).1 := rfl

theorem fuseTo_operators (r : Option Level) (first : Expr) (others : List (BinaryOp × Expr)) :
    (fuseTo r first others).2.map Prod.fst =
      (others.map Prod.fst).filter (fun op => op.level ∉ levelsTo r) := by
  induction r using Level.ascend with
  | primary =>
    rw [List.filter_eq_self.2 (by simp [levelsTo])]
    rfl
  | level l ih =>
    rw [fuseTo_some, fuse_operators, ih, List.filter_filter]
    simp only [levelsTo_some, List.mem_append, List.mem_singleton, not_or, decide_not,
      Bool.decide_and, Bool.and_comm]

theorem fuseTo_disjunction_operators (first : Expr) (others : List (BinaryOp × Expr)) :
    (fuseTo (some .disjunction) first others).2 = [] := by
  have operators := fuseTo_operators (some .disjunction) first others
  rw [List.filter_eq_nil_iff.2 (by simp [mem_levelsTo_disjunction])] at operators
  exact List.map_eq_nil_iff.1 operators

theorem fuseTo_append {r : Option Level} {op : BinaryOp} (h : op.level ∉ levelsTo r) (f g : Expr)
    (xs ys : List (BinaryOp × Expr)) :
    fuseTo r f (xs ++ (op, g) :: ys) =
      ((fuseTo r f xs).1, (fuseTo r f xs).2 ++ (op, (fuseTo r g ys).1) :: (fuseTo r g ys).2) := by
  induction r using Level.ascend with
  | primary => rfl
  | level l ih =>
    rw [levelsTo_some, List.mem_append, List.mem_singleton, not_or] at h
    simp only [fuseTo_some]
    rw [ih h.1, fuse_append_other h.2]

/-! From chains to phrases -/

theorem Chain.fuse_phrases {l : Level} {a b : List Lexeme} {first : Expr}
    {others : List (BinaryOp × Expr)} (h : Phrase (.level l) a first)
    (k : Chain (Phrase (.ranked l.tighter)) b others) :
    ∃ a' b', a ++ b = a' ++ b' ∧ Phrase (.level l) a' (fuse l first others).1 ∧
      Chain (Phrase (.level l)) b' (fuse l first others).2 := by
  induction k generalizing a first with
  | nil => exact ⟨a, [], rfl, h, .nil⟩
  | @cons op ls more e others operand _ ih =>
    by_cases same : op.level = l
    · subst same
      obtain ⟨a', b', cut, ha, hb⟩ := ih (.operation op h operand)
      rw [fuse_cons_same rfl]
      exact ⟨a', b', by simpa using cut, ha, hb⟩
    · obtain ⟨a', b', cut, ha, hb⟩ := ih (.operand l operand)
      rw [fuse_cons_other same]
      exact ⟨a, .symbol op.symbol :: (a' ++ b'), by rw [cut], h, .cons ha hb⟩

theorem Chain.fuseTo_phrases {a b : List Lexeme} {first : Expr} {others : List (BinaryOp × Expr)}
    (h : Phrase .primary a first) (k : Chain (Phrase .primary) b others) (r : Option Level) :
    ∃ a' b', a ++ b = a' ++ b' ∧ Phrase (.ranked r) a' (fuseTo r first others).1 ∧
      Chain (Phrase (.ranked r)) b' (fuseTo r first others).2 := by
  induction r using Level.ascend with
  | primary => exact ⟨a, b, rfl, h, k⟩
  | level l ih =>
    obtain ⟨c, d, cut, hc, hd⟩ := ih
    obtain ⟨a', b', cut', ha, hb⟩ := Chain.fuse_phrases (.operand l hc) hd
    rw [fuseTo_some]
    exact ⟨a', b', cut.trans cut', ha, hb⟩

/-- A flat operation over primaries is an expression, and its tree is the assembled one. -/
theorem Chain.assemble_phrase {a b : List Lexeme} {first : Expr} {others : List (BinaryOp × Expr)}
    (h : Phrase .primary a first) (k : Chain (Phrase .primary) b others) :
    Phrase .expression (a ++ b) (assemble first others) := by
  obtain ⟨a', b', cut, ha, hb⟩ := Chain.fuseTo_phrases h k (some .disjunction)
  rw [fuseTo_disjunction_operators] at hb
  cases hb
  rw [cut, List.append_nil]
  exact ha

/-! From phrases to chains -/

/-- A row that is read flat and then gives one tree at a rank. -/
def Flat (P : List Lexeme → Expr → Prop) (r : Option Level) (ls : List Lexeme) (e : Expr) : Prop :=
  ∃ a b first others, ls = a ++ b ∧ P a first ∧ Chain P b others ∧ fuseTo r first others = (e, [])

namespace Flat
variable {P : List Lexeme → Expr → Prop} {ls left right : List Lexeme} {e a b : Expr}

theorem of_operand (h : P ls e) : Flat P none ls e :=
  ⟨ls, [], e, [], by simp, h, .nil, rfl⟩

theorem lift (l : Level) (h : Flat P l.tighter ls e) : Flat P (some l) ls e := by
  obtain ⟨a, b, first, others, cut, ha, hb, fused⟩ := h
  exact ⟨a, b, first, others, cut, ha, hb, by rw [fuseTo_some, fused, fuse_nil]⟩

theorem operation (op : BinaryOp) (h : Flat P (some op.level) left a)
    (k : Flat P op.level.tighter right b) :
    Flat P (some op.level) (left ++ .symbol op.symbol :: right) (.binary op a b) := by
  obtain ⟨a₁, b₁, first₁, others₁, cut₁, ha₁, hb₁, fused₁⟩ := h
  obtain ⟨a₂, b₂, first₂, others₂, cut₂, ha₂, hb₂, fused₂⟩ := k
  refine ⟨a₁, b₁ ++ .symbol op.symbol :: (a₂ ++ b₂), first₁, others₁ ++ (op, first₂) :: others₂,
    by simp [cut₁, cut₂], ha₁, hb₁.append (.cons ha₂ hb₂), ?_⟩
  rw [fuseTo_some] at fused₁
  rw [fuseTo_some, fuseTo_append (not_mem_levelsTo_tighter _), fused₂]
  exact fuse_append_same rfl fused₁

theorem assemble_eq (h : Flat P (some .disjunction) ls e) :
    ∃ a b first others, ls = a ++ b ∧ P a first ∧ Chain P b others ∧ assemble first others = e := by
  obtain ⟨a, b, first, others, cut, ha, hb, fused⟩ := h
  exact ⟨a, b, first, others, cut, ha, hb, by rw [assemble_eq_fuseTo, fused]⟩

end Flat
end ScriptFrontend.Parse
