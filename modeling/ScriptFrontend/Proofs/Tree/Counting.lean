import Mathlib.Algebra.BigOperators.Group.List.Basic
import Mathlib.Algebra.Ring.Nat
import ScriptFrontend.Proofs.Tally
import ScriptFrontend.Proofs.Tree.Branches
import ScriptFrontend.Tree.Census

/-!
# Counting nodes

A census of any number of trees counts every node below their roots, and the roots, under its kind.
Nodes are told apart by their place in a tree, so what is counted is the list of all nodes; a census
adds up over the trees and forgets in which order they came.
-/
namespace ScriptFrontend

/-! All nodes of a tree -/

def Expr.kind : Expr → NodeKind
  | .literal _ => .literal
  | .identifier _ => .identifier
  | .binary _ _ _ => .binaryOp
  | .unary _ _ => .unaryOp
  | .call _ _ => .callExpression

def Stmt.kind : Stmt → NodeKind
  | .declaration _ _ => .varDeclaration
  | .assignment _ _ => .assignment
  | .block _ => .block
  | .ifThen _ _ | .ifThenElse _ _ _ => .ifStatement
  | .whileLoop _ _ => .whileStatement
  | .function _ _ _ => .functionDeclaration
  | .returnValue _ => .returnStatement
  | .expression _ => .expressionStatement

namespace Node

/-- A body is of one kind, whether it belongs to a statement or is one. -/
def kind : Node → NodeKind
  | .program _ => .program
  | .block _ => .block
  | .stmt s => s.kind
  | .expr e => e.kind

theorem kind_visit (n : Node) : n.visit.kind = n.kind := by
  cases n with
  | program p => rfl
  | block body => rfl
  | stmt s => cases s <;> rfl
  | expr e => cases e <;> rfl

/-- The node itself and the nodes below its children. -/
def subnodes (n : Node) : List Node :=
  n :: n.children.attach.flatMap fun child => child.1.2.subnodes
termination_by sizeOf n
decreasing_by exact sizeOf_lt_of_mem_children child.2

theorem subnodes_eq (n : Node) :
    n.subnodes = n :: n.branches.flatMap fun b => b.nodes.flatMap subnodes := by
  rw [subnodes, List.flatMap_subtype (g := fun child => child.2.subnodes) fun _ _ => rfl,
    List.unattach_attach, n.flatMap_children fun _ m => m.subnodes]

/-- A traversal calls its visitor once for every node. -/
theorem visits_subnodes (n : Node) : n.visits = n.subnodes.map visit := by
  induction n using branches_induction with
  | step n ih =>
    have below : n.branches.flatMap (fun b => b.nodes.flatMap visits) =
        n.branches.flatMap fun b => (b.nodes.flatMap subnodes).map visit :=
      List.flatMap_congr fun b branch => by
        rw [List.map_flatMap]
        exact List.flatMap_congr fun m node => ih b branch m node
    rw [visits_eq, subnodes_eq, List.map_cons, List.map_flatMap, below]

theorem kinds_visits (n : Node) : n.visits.map Visit.kind = n.subnodes.map kind := by
  rw [visits_subnodes, List.map_map]
  exact List.map_congr_left fun m _ => m.kind_visit

end Node

/-! Kinds and their labels -/

namespace NodeKind

theorem mem_all (k : NodeKind) : k ∈ all := by
  cases k <;> decide

theorem rank_injective : Function.Injective rank :=
  fun j _ same => (List.idxOf_inj (mem_all j)).1 same

theorem labels_increase : all.Pairwise fun j k => j.label < k.label := by
  decide

theorem label_lt {j k : NodeKind} (below : j.rank < k.rank) : j.label < k.label := by
  have increase := List.pairwise_iff_getElem.1 labels_increase j.rank k.rank
    (List.idxOf_lt_length_of_mem (mem_all j)) (List.idxOf_lt_length_of_mem (mem_all k)) below
  simpa only [rank, List.getElem_idxOf] using increase

theorem ofLabel?_label (k : NodeKind) : ofLabel? k.label = some k := by
  cases k <;> decide

theorem label_of_ofLabel? {word : String} {k : NodeKind} (known : ofLabel? word = some k) :
    k.label = word := by
  simpa using List.find?_some known

theorem label_injective {j k : NodeKind} (same : j.label = k.label) : j = k := by
  have found := ofLabel?_label j
  rw [same, ofLabel?_label] at found
  exact (Option.some.inj found).symm

end NodeKind

/-! A census of several trees -/

namespace Census

/-- The census of trees that are visited one after the other. -/
def ofNodes (ns : List Node) : Census := ns.foldl add empty

/-- The kinds of all nodes of the trees. -/
def kinds (ns : List Node) : List NodeKind := ns.flatMap fun n => n.subnodes.map Node.kind

theorem ofNodes_eq (ns : List Node) :
    ofNodes ns = Tally.empty.bumpAll NodeKind.rank (kinds ns) := by
  have visit : add = fun c n => c.bumpAll NodeKind.rank (n.subnodes.map Node.kind) := by
    funext c n
    rw [add, n.kinds_visits]
  rw [ofNodes, visit, Tally.bumpAll, kinds, List.foldl_flatMap]
  rfl

theorem length_kinds (ns : List Node) :
    (kinds ns).length = (ns.map fun n => n.subnodes.length).sum := by
  rw [kinds, List.length_flatMap]
  congr 1
  exact List.map_congr_left fun n _ => List.length_map _

theorem countP_kinds (ns : List Node) (label : String) :
    (kinds ns).countP (fun k => k.label = label) =
      (ns.map fun n => n.subnodes.countP fun m => m.kind.label = label).sum := by
  rw [kinds, List.countP_flatMap]
  congr 1
  refine List.map_congr_left fun n _ => ?_
  rw [Function.comp_apply, List.countP_map]
  rfl

theorem countLabelled_label (ns : List Node) (k : NodeKind) :
    (ofNodes ns).countLabelled k.label = (kinds ns).count k := by
  rw [countLabelled, NodeKind.ofLabel?_label, ofNodes_eq]
  exact Tally.count_bumpAll NodeKind.rank_injective _ k

theorem countLabelled_ofNodes (ns : List Node) (label : String) :
    (ofNodes ns).countLabelled label = (kinds ns).countP fun k => k.label = label := by
  cases known : NodeKind.ofLabel? label with
  | some k =>
    have here := NodeKind.label_of_ofLabel? known
    have same : ∀ j ∈ kinds ns, (j == k) = true ↔ decide (j.label = label) = true := by
      intro j _
      rw [beq_iff_eq, decide_eq_true_iff, ← here]
      exact ⟨congrArg NodeKind.label, NodeKind.label_injective⟩
    rw [← here, countLabelled_label, here, List.count_eq_countP, List.countP_congr same]
  | none =>
    have unknown : ∀ j ∈ kinds ns, ¬decide (j.label = label) = true := by
      intro j _ same
      rw [← of_decide_eq_true same, NodeKind.ofLabel?_label] at known
      cases known
    rw [List.countP_eq_zero.2 unknown, countLabelled, known]

theorem mem_summary (ns : List Node) (label : String) (count : Nat) :
    (label, count) ∈ (ofNodes ns).summary ↔
      count ≠ 0 ∧ (ofNodes ns).countLabelled label = count := by
  have entry (k : NodeKind) :
      (k, count) ∈ (ofNodes ns).entries ↔ count ≠ 0 ∧ (kinds ns).count k = count := by
    rw [ofNodes_eq]
    exact Tally.mem_bumpAll_iff NodeKind.rank_injective _ k count
  rw [summary, List.mem_map]
  constructor
  · rintro ⟨⟨k, n⟩, inside, same⟩
    obtain ⟨rfl, rfl⟩ := Prod.mk.inj same
    rw [countLabelled_label]
    exact (entry k).1 inside
  · rintro ⟨counted, same⟩
    cases known : NodeKind.ofLabel? label with
    | some k =>
      obtain rfl := NodeKind.label_of_ofLabel? known
      rw [countLabelled_label] at same
      exact ⟨(k, count), (entry k).2 ⟨counted, same⟩, rfl⟩
    | none =>
      rw [countLabelled, known] at same
      exact absurd same.symm counted

theorem summary_increases (ns : List Node) :
    ((ofNodes ns).summary.map Prod.fst).Pairwise (· < ·) := by
  have ordered := Tally.ordered_bumpAll NodeKind.rank_injective (kinds ns)
  rw [summary, List.map_map, List.pairwise_map, ofNodes_eq]
  exact ordered.pairwise.imp NodeKind.label_lt

theorem sum_summary (c : Census) : (c.summary.map Prod.snd).sum = c.total := by
  obtain ⟨entries⟩ := c
  induction entries with
  | nil => rfl
  | cons entry entries ih =>
    rw [summary, Tally.total, List.foldr_cons, ← Tally.total, ← ih]
    rfl

theorem ofNodes_perm {ms ns : List Node} (perm : ms.Perm ns) : ofNodes ms = ofNodes ns := by
  rw [ofNodes_eq, ofNodes_eq]
  exact Tally.bumpAll_perm NodeKind.rank_injective (perm.flatMap_right _)

theorem total_ofNodes (ns : List Node) :
    (ofNodes ns).total = (ns.map fun n => n.subnodes.length).sum := by
  rw [ofNodes_eq, Tally.total_bumpAll, length_kinds]
  exact Nat.zero_add _

/-- Whatever trees are visited, and in whatever order: under a label stands how many nodes of its kind
they have together, and the total is how many nodes they have. The summary lists the labels that
were counted, each once and in increasing order, and its counts make up the total. -/
theorem counts_every_node (ns : List Node) :
    (∀ label, (ofNodes ns).countLabelled label =
        (ns.map fun n => n.subnodes.countP fun m => m.kind.label = label).sum) ∧
      (ofNodes ns).total = (ns.map fun n => n.subnodes.length).sum ∧
      (∀ label count, (label, count) ∈ (ofNodes ns).summary ↔
        count ≠ 0 ∧ (ofNodes ns).countLabelled label = count) ∧
      ((ofNodes ns).summary.map Prod.fst).Pairwise (· < ·) ∧
      ((ofNodes ns).summary.map Prod.snd).sum = (ofNodes ns).total ∧
      ∀ ms : List Node, ms.Perm ns → ofNodes ms = ofNodes ns := by
  refine ⟨fun label => ?_, total_ofNodes ns, mem_summary ns, summary_increases ns, sum_summary _, ?_⟩
  · rw [countLabelled_ofNodes, countP_kinds]
  · exact fun ms perm => ofNodes_perm perm

end Census
end ScriptFrontend
