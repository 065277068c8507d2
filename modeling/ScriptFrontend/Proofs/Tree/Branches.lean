import Mathlib.Data.List.Basic
import ScriptFrontend.Tree.Outline

/-!
# Nodes and their children

What a single node is visited as, and which children it has, in the order in which they are visited.
Children with a role of their own stand one level further in, below the name of the role. A tree is
walked from these two alone; the recursions over expressions, statements and bodies are that walk.
-/
namespace ScriptFrontend

/-- Children below the name of one role, or right below their parent. -/
structure Branch where
  role : Option OutlineLabel
  nodes : List Node

def Branch.levels (b : Branch) : Nat := if b.role.isSome then 2 else 1

def Expr.visit : Expr → Visit
  | .literal value => .literal value
  | .identifier name => .identifier name
  | .binary op _ _ => .binary op
  | .unary op _ => .unary op
  | .call callee arguments => .call callee arguments.length

def Stmt.visit : Stmt → Visit
  | .declaration name _ => .declaration name
  | .assignment name _ => .assignment name
  | .block body => .block body.length
  | .ifThen _ _ => .conditional false
  | .ifThenElse _ _ _ => .conditional true
  | .whileLoop _ _ => .whileLoop
  | .function name parameters _ => .function name parameters
  | .returnValue _ => .returnValue
  | .expression _ => .expression

def Node.visit : Node → Visit
  | .program p => .program p.statements.length
  | .block body => .block body.length
  | .stmt s => s.visit
  | .expr e => e.visit

def Expr.branches : Expr → List Branch
  | .literal _ | .identifier _ | .call _ [] => []
  | .binary _ left right => [⟨some .left, [.expr left]⟩, ⟨some .right, [.expr right]⟩]
  | .unary _ operand => [⟨none, [.expr operand]⟩]
  | .call _ (e :: es) => [⟨some .arguments, .expr e :: es.map .expr⟩]

/-- The parameters of a function are no nodes: their role has a name and no children. -/
def Stmt.branches : Stmt → List Branch
  | .declaration _ value | .assignment _ value => [⟨some .value, [.expr value]⟩]
  | .block body => [⟨none, body.map .stmt⟩]
  | .ifThen condition consequent =>
    [⟨some .condition, [.expr condition]⟩, ⟨some .consequent, [.block consequent]⟩]
  | .ifThenElse condition consequent alternative =>
    [⟨some .condition, [.expr condition]⟩, ⟨some .consequent, [.block consequent]⟩,
      ⟨some .alternative, [.block alternative]⟩]
  | .whileLoop condition body =>
    [⟨some .condition, [.expr condition]⟩, ⟨some .body, [.block body]⟩]
  | .function _ parameters body =>
    [⟨some (.parameters parameters), []⟩, ⟨some .body, [.block body]⟩]
  | .returnValue value | .expression value => [⟨none, [.expr value]⟩]

def Node.branches : Node → List Branch
  | .program p => [⟨none, p.statements.map .stmt⟩]
  | .block body => [⟨none, body.map .stmt⟩]
  | .stmt s => s.branches
  | .expr e => e.branches

/-! Children are smaller -/

theorem sizeOf_lt_of_mem_body {m : Node} {body : List Stmt} (mem : m ∈ body.map Node.stmt) :
    sizeOf m < 1 + sizeOf body := by
  obtain ⟨s, inside, rfl⟩ := List.mem_map.mp mem
  have smaller := List.sizeOf_lt_of_mem inside
  rw [Node.stmt.sizeOf_spec]
  omega

theorem sizeOf_lt_of_mem_arguments {m : Node} {es : List Expr} (mem : m ∈ es.map Node.expr) :
    sizeOf m < 1 + sizeOf es := by
  obtain ⟨e, inside, rfl⟩ := List.mem_map.mp mem
  have smaller := List.sizeOf_lt_of_mem inside
  rw [Node.expr.sizeOf_spec]
  omega

theorem Expr.sizeOf_lt_of_mem_branches {e : Expr} {b : Branch} {m : Node} (branch : b ∈ e.branches)
    (node : m ∈ b.nodes) : sizeOf m < 1 + sizeOf e := by
  cases e with
  | literal value => cases branch
  | identifier name => cases branch
  | binary op left right =>
    rcases List.mem_pair.mp branch with rfl | rfl <;> cases List.mem_singleton.mp node <;>
      rw [Node.expr.sizeOf_spec, Expr.binary.sizeOf_spec] <;> omega
  | unary op operand =>
    cases List.mem_singleton.mp branch
    cases List.mem_singleton.mp node
    rw [Node.expr.sizeOf_spec, Expr.unary.sizeOf_spec]
    omega
  | call callee es =>
    cases es with
    | nil => cases branch
    | cons e es =>
      cases List.mem_singleton.mp branch
      have smaller : sizeOf m < 1 + sizeOf (e :: es) := sizeOf_lt_of_mem_arguments node
      rw [Expr.call.sizeOf_spec]
      omega

theorem Stmt.sizeOf_lt_of_mem_branches {s : Stmt} {b : Branch} {m : Node} (branch : b ∈ s.branches)
    (node : m ∈ b.nodes) : sizeOf m < 1 + sizeOf s := by
  cases s with
  | block body =>
    cases List.mem_singleton.mp branch
    have smaller := sizeOf_lt_of_mem_body node
    rw [Stmt.block.sizeOf_spec]
    omega
  | ifThenElse condition consequent alternative =>
    simp only [branches, List.mem_cons, List.not_mem_nil, or_false] at branch
    rcases branch with rfl | rfl | rfl <;> cases List.mem_singleton.mp node <;>
      simp only [Node.expr.sizeOf_spec, Node.block.sizeOf_spec, Stmt.ifThenElse.sizeOf_spec] <;> omega
  | ifThen condition body =>
    rcases List.mem_pair.mp branch with rfl | rfl <;> cases List.mem_singleton.mp node <;>
      simp only [Node.expr.sizeOf_spec, Node.block.sizeOf_spec, Stmt.ifThen.sizeOf_spec] <;> omega
  | whileLoop condition body =>
    rcases List.mem_pair.mp branch with rfl | rfl <;> cases List.mem_singleton.mp node <;>
      simp only [Node.expr.sizeOf_spec, Node.block.sizeOf_spec, Stmt.whileLoop.sizeOf_spec] <;> omega
  | function name parameters body =>
    rcases List.mem_pair.mp branch with rfl | rfl
    · cases node
    · cases List.mem_singleton.mp node
      rw [Node.block.sizeOf_spec, Stmt.function.sizeOf_spec]
      omega
  | declaration name value | assignment name value | returnValue value | expression value =>
    cases List.mem_singleton.mp branch
    cases List.mem_singleton.mp node
    simp only [Node.expr.sizeOf_spec, Stmt.declaration.sizeOf_spec, Stmt.assignment.sizeOf_spec,
      Stmt.returnValue.sizeOf_spec, Stmt.expression.sizeOf_spec]
    omega

namespace Node

theorem sizeOf_lt_of_mem_branches {n m : Node} {b : Branch} (branch : b ∈ n.branches)
    (node : m ∈ b.nodes) : sizeOf m < sizeOf n := by
  cases n with
  | program p =>
    cases List.mem_singleton.mp branch
    have smaller := sizeOf_lt_of_mem_body node
    rw [Node.program.sizeOf_spec, Program.mk.sizeOf_spec]
    omega
  | block body =>
    cases List.mem_singleton.mp branch
    exact sizeOf_lt_of_mem_body node
  | stmt s => exact Stmt.sizeOf_lt_of_mem_branches branch node
  | expr e => exact Expr.sizeOf_lt_of_mem_branches branch node

/-- The children with the levels that they lie below their parent. -/
def children (n : Node) : List (Nat × Node) :=
  n.branches.flatMap fun b => b.nodes.map fun m => (b.levels, m)

theorem sizeOf_lt_of_mem_children {n : Node} {child : Nat × Node} (mem : child ∈ n.children) :
    sizeOf child.2 < sizeOf n := by
  obtain ⟨b, branch, mem⟩ := List.mem_flatMap.mp mem
  obtain ⟨m, node, rfl⟩ := List.mem_map.mp mem
  exact sizeOf_lt_of_mem_branches branch node

theorem branches_induction {motive : Node → Prop}
    (step : ∀ n, (∀ b ∈ n.branches, ∀ m ∈ b.nodes, motive m) → motive n) (n : Node) : motive n :=
  step n fun _ branch m node =>
    have := sizeOf_lt_of_mem_branches branch node
    branches_induction step m
termination_by sizeOf n

theorem flatMap_children {α : Type} (n : Node) (f : Nat → Node → List α) :
    n.children.flatMap (fun child => f child.1 child.2) =
      n.branches.flatMap fun b => b.nodes.flatMap (f b.levels) := by
  simp only [children, List.flatMap_assoc, List.flatMap_map]

end Node

/-! The walk through a tree -/

/-- One call of a visitor, and how deep the node lies. -/
structure Call where
  depth : Nat
  visit : Visit

namespace Node

def walk (depth : Nat) (n : Node) : List Call :=
  ⟨depth, n.visit⟩ ::
    n.children.attach.flatMap fun child => child.1.2.walk (depth + child.1.1)
termination_by sizeOf n
decreasing_by exact sizeOf_lt_of_mem_children child.2

theorem walk_eq (depth : Nat) (n : Node) :
    n.walk depth =
      ⟨depth, n.visit⟩ :: n.branches.flatMap fun b => b.nodes.flatMap (walk (depth + b.levels)) := by
  -- the definition keeps the membership of each child for its termination; drop it again
  rw [walk, List.flatMap_subtype (g := fun child => child.2.walk (depth + child.1)) fun _ _ => rfl,
    List.unattach_attach, n.flatMap_children fun levels m => m.walk (depth + levels)]

end Node

/-! The visits of a tree -/

theorem Expr.visitsAll_eq (es : List Expr) : visitsAll es = es.flatMap visits := by
  induction es with
  | nil => rfl
  | cons e es ih => rw [visitsAll, ih, List.flatMap_cons]

theorem Stmt.visitsAll_eq (ss : List Stmt) : visitsAll ss = ss.flatMap visits := by
  induction ss with
  | nil => rfl
  | cons s ss ih => rw [visitsAll, ih, List.flatMap_cons]

theorem Node.visits_eq (n : Node) :
    n.visits = n.visit :: n.branches.flatMap fun b => b.nodes.flatMap visits := by
  cases n with
  | program p => simp [visits, Program.visits, visit, branches, Stmt.visitsAll_eq, List.flatMap_map]
  | block body => simp [visits, visit, branches, Stmt.visitsAll_eq, List.flatMap_map]
  | stmt s =>
    cases s <;> simp [visits, Stmt.visits, visit, Stmt.visit, branches, Stmt.branches,
      Stmt.visitsAll_eq, List.flatMap_map]
  | expr e =>
    cases e with
    | call callee es =>
      -- a call without arguments has no branch
      cases es <;> simp [visits, Expr.visits, visit, Expr.visit, branches, Expr.branches,
        Expr.visitsAll_eq, List.flatMap_map]
    | _ => simp [visits, Expr.visits, visit, Expr.visit, branches, Expr.branches]

theorem Node.mem_visits (n : Node) : n.visit ∈ n.visits := by
  rw [visits_eq]
  exact List.mem_cons_self

theorem Node.mem_visits_of_child {n m : Node} {b : Branch} {v : Visit} (branch : b ∈ n.branches)
    (node : m ∈ b.nodes) (visit : v ∈ m.visits) : v ∈ n.visits := by
  rw [visits_eq]
  exact List.mem_cons_of_mem _
    (List.mem_flatMap.mpr ⟨b, branch, List.mem_flatMap.mpr ⟨m, node, visit⟩⟩)

theorem Node.walk_visits (depth : Nat) (n : Node) : (n.walk depth).map Call.visit = n.visits := by
  induction n using branches_induction generalizing depth with
  | step n ih =>
    have below : n.branches.flatMap (fun b =>
          (b.nodes.flatMap (walk (depth + b.levels))).map Call.visit) =
        n.branches.flatMap fun b => b.nodes.flatMap visits :=
      List.flatMap_congr fun b branch => by
        rw [List.map_flatMap]
        exact List.flatMap_congr fun m node => ih b branch m node _
    rw [walk_eq, visits_eq, List.map_cons, List.map_flatMap, below]

/-! The rows of an outline -/

theorem Expr.outlineAll_eq (depth : Nat) (es : List Expr) :
    outlineAll depth es = es.flatMap (outline depth) := by
  induction es with
  | nil => rfl
  | cons e es ih => rw [outlineAll, ih, List.flatMap_cons]

theorem Stmt.outlineAll_eq (depth : Nat) (ss : List Stmt) :
    outlineAll depth ss = ss.flatMap (outline depth) := by
  induction ss with
  | nil => rfl
  | cons s ss ih => rw [outlineAll, ih, List.flatMap_cons]

/-- The row with the name of the role, if there is one. -/
def Branch.heading (depth : Nat) (b : Branch) : List OutlineRow :=
  b.role.toList.map fun role => ⟨depth, .label role⟩

theorem Node.outline_eq (depth : Nat) (n : Node) :
    n.outline depth =
      ⟨depth, .header n.visit⟩ :: n.branches.flatMap fun b =>
        b.heading (depth + 1) ++ b.nodes.flatMap (outline (depth + b.levels)) := by
  cases n with
  | program p =>
    simp [outline, Program.outline, visit, branches, Stmt.outlineAll_eq, List.flatMap_map,
      Branch.heading, Branch.levels]
  | block body =>
    simp [outline, visit, branches, Stmt.outlineAll_eq, List.flatMap_map, Branch.heading, Branch.levels]
  | stmt s =>
    cases s <;> simp [outline, Stmt.outline, visit, Stmt.visit, branches, Stmt.branches,
      Stmt.outlineAll_eq, Expr.outlineAs, List.flatMap_map, Branch.heading, Branch.levels]
  | expr e =>
    cases e with
    | call callee es =>
      cases es <;> simp [outline, Expr.outline, visit, Expr.visit, branches, Expr.branches,
        Expr.outlineAll_eq, List.flatMap_map, Branch.heading, Branch.levels]
    | _ =>
      simp [outline, Expr.outline, visit, Expr.visit, branches, Expr.branches, Branch.heading,
        Branch.levels]

def OutlineRow.call? (r : OutlineRow) : Option Call :=
  match r.entry with
  | .label _ => none
  | .header v => some ⟨r.depth, v⟩

theorem Branch.filterMap_heading (depth : Nat) (b : Branch) :
    (b.heading depth).filterMap OutlineRow.call? = [] := by
  obtain ⟨role, nodes⟩ := b
  cases role <;> rfl

/-- Without the names of roles, an outline is the walk. -/
theorem Node.outline_calls (depth : Nat) (n : Node) :
    (n.outline depth).filterMap OutlineRow.call? = n.walk depth := by
  induction n using branches_induction generalizing depth with
  | step n ih =>
    have below : n.branches.flatMap (fun b => (b.heading (depth + 1) ++
          b.nodes.flatMap (outline (depth + b.levels))).filterMap OutlineRow.call?) =
        n.branches.flatMap fun b => b.nodes.flatMap (walk (depth + b.levels)) :=
      List.flatMap_congr fun b branch => by
        rw [List.filterMap_append, b.filterMap_heading, List.nil_append, List.filterMap_flatMap]
        exact List.flatMap_congr fun m node => ih b branch m node _
    have head : OutlineRow.call? ⟨depth, .header n.visit⟩ = some ⟨depth, n.visit⟩ := rfl
    rw [outline_eq, walk_eq, List.filterMap_cons_some head, List.filterMap_flatMap, below]

def OutlineRow.lower (levels : Nat) (r : OutlineRow) : OutlineRow := ⟨levels + r.depth, r.entry⟩

theorem Branch.heading_add (levels depth : Nat) (b : Branch) :
    b.heading (levels + depth) = (b.heading depth).map (OutlineRow.lower levels) := by
  rw [heading, heading, List.map_map]
  rfl

theorem Node.outline_add (levels depth : Nat) (n : Node) :
    n.outline (levels + depth) = (n.outline depth).map (OutlineRow.lower levels) := by
  induction n using branches_induction generalizing depth with
  | step n ih =>
    have below : n.branches.flatMap (fun b => b.heading (levels + depth + 1) ++
          b.nodes.flatMap (outline (levels + depth + b.levels))) =
        n.branches.flatMap fun b => (b.heading (depth + 1) ++
          b.nodes.flatMap (outline (depth + b.levels))).map (OutlineRow.lower levels) :=
      List.flatMap_congr fun b branch => by
        rw [List.map_append, List.map_flatMap, Nat.add_assoc, Nat.add_assoc, b.heading_add]
        congr 1
        exact List.flatMap_congr fun m node => ih b branch m node _
    rw [outline_eq, outline_eq, List.map_cons, List.map_flatMap, below]
    rfl

end ScriptFrontend
