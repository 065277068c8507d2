import ScriptFrontend.Proofs.Tree.Headings

/-!
# An outline tells its tree

Nothing marks where the children of a node end but the depth of the next row, and neither are the
branches counted that a node has. Even so no two programs have one outline: whatever rows follow those
of a node, as long as they do not lie below it, the rows tell the node and where it ends.
-/
namespace ScriptFrontend

/-! Pieces of an outline -/

/-- Rows behind a piece of an outline: none of the piece's rows can be among them. -/
def Shallow (level : Nat) (rest : List (Nat × String)) : Prop := ∀ row ∈ rest.head?, row.1 < level

section Pieces
variable {α β : Type} {f : α → List (Nat × String)} {g : α → β} {clear : α → Prop} {level : Nat}
  {rest rest' : List (Nat × String)} {as bs : List α}

theorem Shallow.mono {k : Nat} (h : Shallow level rest) (le : level ≤ k) : Shallow k rest :=
  fun row head => Nat.lt_of_lt_of_le (h row head) le

def StartsAt (level : Nat) (rows : List (Nat × String)) : Prop :=
  ∃ text more, rows = (level, text) :: more

/-- Whatever follows the rows of a piece, they tell what it looks like and where it ends. -/
def Tells (level : Nat) (f : α → List (Nat × String)) (g : α → β) (clear : α → Prop) (a : α) : Prop :=
  ∀ b rest rest', clear b → Shallow (level + 1) rest → Shallow (level + 1) rest' →
    f a ++ rest = f b ++ rest' → g a = g b ∧ rest = rest'

theorem shallow_pieces (starts : ∀ a ∈ as, StartsAt level (f a)) (h : Shallow level rest) :
    Shallow (level + 1) (as.flatMap f ++ rest) := by
  cases as with
  | nil => exact h.mono (Nat.le_succ level)
  | cons a as =>
    obtain ⟨text, more, rows⟩ := starts a List.mem_cons_self
    intro row head
    rw [List.flatMap_cons, rows] at head
    cases head
    exact Nat.lt_succ_self level

theorem ne_pieces {a : α} (starts : StartsAt level (f a)) (h : Shallow level rest) :
    rest ≠ (a :: as).flatMap f ++ rest' := by
  obtain ⟨text, more, rows⟩ := starts
  rintro rfl
  refine Nat.lt_irrefl level (h (level, text) ?_)
  rw [List.flatMap_cons, rows]
  rfl

theorem pieces_told (starts : ∀ a, clear a → StartsAt level (f a))
    (told : ∀ a ∈ as, Tells level f g clear a) (clear_as : ∀ a ∈ as, clear a)
    (clear_bs : ∀ b ∈ bs, clear b) (h : Shallow level rest) (h' : Shallow level rest')
    (same : as.flatMap f ++ rest = bs.flatMap f ++ rest') :
    as.map g = bs.map g ∧ rest = rest' := by
  induction as generalizing bs with
  | nil =>
    cases bs with
    | nil => exact ⟨rfl, same⟩
    | cons b bs => exact absurd same (ne_pieces (starts b (clear_bs b List.mem_cons_self)) h)
  | cons a as ih =>
    cases bs with
    | nil => exact absurd same.symm (ne_pieces (starts a (clear_as a List.mem_cons_self)) h')
    | cons b bs =>
      obtain ⟨first, told⟩ := List.forall_mem_cons.1 told
      obtain ⟨-, clear_as⟩ := List.forall_mem_cons.1 clear_as
      obtain ⟨here, clear_bs⟩ := List.forall_mem_cons.1 clear_bs
      have behind := shallow_pieces (fun a mem => starts a (clear_as a mem)) h
      have behind' := shallow_pieces (fun b mem => starts b (clear_bs b mem)) h'
      rw [List.flatMap_cons, List.flatMap_cons, List.append_assoc, List.append_assoc] at same
      obtain ⟨head, same⟩ := first b _ _ here behind behind' same
      obtain ⟨tail, left⟩ := ih told clear_as clear_bs same
      exact ⟨by rw [List.map_cons, List.map_cons, head, tail], left⟩

end Pieces

/-! Rows that tell the node -/

/-- A body as the statement that it could be: the two show the same rows. -/
def Node.bare : Node → Node
  | .block body => .stmt (.block body)
  | n => n

def Branch.look (b : Branch) : Option String × List Node :=
  (b.role.map OutlineLabel.text, b.nodes.map Node.bare)

def Node.Told (n : Node) : Prop :=
  n.Legible → ∀ depth, Tells depth (Node.shown depth) Node.bare Node.Legible n

theorem Node.startsAt (depth : Nat) (n : Node) : StartsAt depth (n.shown depth) :=
  ⟨_, _, n.shown_eq depth⟩

variable {depth : Nat} {rest rest' : List (Nat × String)}

theorem nodes_told {ms ns : List Node} (told : ∀ m ∈ ms, m.Told) (legible : ∀ m ∈ ms, m.Legible)
    (legible' : ∀ n ∈ ns, n.Legible) (h : Shallow depth rest) (h' : Shallow depth rest')
    (same : ms.flatMap (Node.shown depth) ++ rest = ns.flatMap (Node.shown depth) ++ rest') :
    ms.map Node.bare = ns.map Node.bare ∧ rest = rest' :=
  pieces_told (fun n _ => n.startsAt depth) (fun m mem => told m mem (legible m mem) depth) legible
    legible' h h' same

/-- A branch with a role, and children that their rows tell apart. -/
def Branch.Clear (b : Branch) : Prop := b.role.isSome = true ∧ ∀ n ∈ b.nodes, n.Legible

theorem Branch.Clear.shown {b : Branch} (h : b.Clear) (depth : Nat) :
    ∃ role, b.role = some role ∧
      b.shown depth = (depth + 1, role.text) :: b.nodes.flatMap (Node.shown (depth + 2)) := by
  obtain ⟨role, known⟩ := Option.isSome_iff_exists.1 h.1
  refine ⟨role, known, ?_⟩
  rw [Branch.shown, levels, if_pos h.1, known]
  rfl

theorem Branch.Clear.tells {b : Branch} (h : b.Clear) (told : ∀ m ∈ b.nodes, m.Told) (depth : Nat) :
    Tells (depth + 1) (Branch.shown depth) Branch.look Branch.Clear b := by
  intro c rest rest' h' shallow shallow' same
  obtain ⟨role, known, rows⟩ := h.shown depth
  obtain ⟨role', known', rows'⟩ := h'.shown depth
  rw [rows, rows', List.cons_append, List.cons_append] at same
  obtain ⟨heading, same⟩ := List.cons_eq_cons.1 same
  obtain ⟨nodes, left⟩ := nodes_told told h.2 h'.2 shallow shallow' same
  have text : role.text = role'.text := (Prod.mk.inj heading).2
  exact ⟨by simp only [look, known, known', nodes, text, Option.map_some], left⟩

theorem branches_told {bs cs : List Branch} (told : ∀ b ∈ bs, ∀ m ∈ b.nodes, m.Told)
    (clear : ∀ b ∈ bs, b.Clear) (clear' : ∀ c ∈ cs, c.Clear) (h : Shallow (depth + 1) rest)
    (h' : Shallow (depth + 1) rest')
    (same : bs.flatMap (Branch.shown depth) ++ rest = cs.flatMap (Branch.shown depth) ++ rest') :
    bs.map Branch.look = cs.map Branch.look ∧ rest = rest' := by
  have starts (b : Branch) (clear : b.Clear) : StartsAt (depth + 1) (b.shown depth) := by
    obtain ⟨role, -, rows⟩ := clear.shown depth
    exact ⟨_, _, rows⟩
  exact pieces_told starts (fun b mem => (clear b mem).tells (told b mem) depth) clear clear' h h' same

/-- The kinds of nodes whose children stand right below them. -/
def NodeKind.plain : NodeKind → Bool
  | program | block | unaryOp | returnStatement | expressionStatement => true
  | _ => false

theorem Node.branches_of_plain {n : Node} (plain : n.visit.kind.plain = true) :
    ∃ ms, n.branches = [⟨none, ms⟩] := by
  cases n with
  | program p => exact ⟨_, rfl⟩
  | block body => exact ⟨_, rfl⟩
  | stmt s =>
    cases s with
    | block | returnValue | expression => exact ⟨_, rfl⟩
    | _ => cases plain
  | expr e =>
    cases e with
    | unary => exact ⟨_, rfl⟩
    | _ => cases plain

theorem Node.branches_roled {n : Node} (roled : n.visit.kind.plain = false) :
    ∀ b ∈ n.branches, b.role.isSome = true := by
  cases n with
  | program p => cases roled
  | block body => cases roled
  | stmt s =>
    cases s with
    | block | returnValue | expression => cases roled
    | _ => simp [branches, Stmt.branches]
  | expr e =>
    cases e with
    | unary => cases roled
    | call callee es => cases es <;> simp [branches, Expr.branches]
    | _ => simp [branches, Expr.branches]

theorem Node.looks_told {n m : Node} (kind : n.visit.kind = m.visit.kind)
    (told : ∀ b ∈ n.branches, ∀ k ∈ b.nodes, k.Told) (legible : n.Legible) (legible' : m.Legible)
    (h : Shallow (depth + 1) rest) (h' : Shallow (depth + 1) rest')
    (same : n.branches.flatMap (Branch.shown depth) ++ rest =
      m.branches.flatMap (Branch.shown depth) ++ rest') :
    n.branches.map Branch.look = m.branches.map Branch.look ∧ rest = rest' := by
  cases plain : n.visit.kind.plain with
  | true =>
    obtain ⟨ms, single⟩ := branches_of_plain plain
    obtain ⟨ns, single'⟩ := branches_of_plain (kind ▸ plain)
    have shown (ms : List Node) : [Branch.mk none ms].flatMap (Branch.shown depth) =
        ms.flatMap (Node.shown (depth + 1)) := List.flatMap_singleton _ _
    rw [single, single', shown, shown] at same
    have child : ∀ k ∈ ms, k.Legible := fun k node =>
      legible.child (single ▸ List.mem_singleton_self _) node
    have child' : ∀ k ∈ ns, k.Legible := fun k node =>
      legible'.child (single' ▸ List.mem_singleton_self _) node
    obtain ⟨nodes, left⟩ :=
      nodes_told (told _ (single ▸ List.mem_singleton_self _)) child child' h h' same
    refine ⟨?_, left⟩
    rw [single, single']
    exact congrArg (fun nodes => [(none, nodes)]) nodes
  | false =>
    have clear : ∀ b ∈ n.branches, b.Clear := fun b branch =>
      ⟨branches_roled plain b branch, fun k node => legible.child branch node⟩
    have clear' : ∀ b ∈ m.branches, b.Clear := fun b branch =>
      ⟨branches_roled (kind ▸ plain) b branch, fun k node => legible'.child branch node⟩
    exact branches_told told clear clear' h h' same

/-! Children that tell the node -/

theorem stmts_of_bare {ss ts : List Stmt}
    (same : (ss.map Node.stmt).map Node.bare = (ts.map Node.stmt).map Node.bare) : ss = ts := by
  rw [List.map_map, List.map_map] at same
  exact List.map_injective_iff.2 (fun _ _ => Node.stmt.inj) same

theorem exprs_of_bare {es fs : List Expr}
    (same : (es.map Node.expr).map Node.bare = (fs.map Node.expr).map Node.bare) : es = fs := by
  rw [List.map_map, List.map_map] at same
  exact List.map_injective_iff.2 (fun _ _ => Node.expr.inj) same

theorem Expr.eq_of_told {e f : Expr} (legible : (Node.expr e).Legible) (legible' : (Node.expr f).Legible)
    (heading : e.visit.heading = f.visit.heading)
    (looks : e.branches.map Branch.look = f.branches.map Branch.look) : e = f := by
  have kind := Visit.told_kind heading
  obtain ⟨title, payload⟩ := Visit.told heading
  cases e with
  | literal a =>
    cases f with
    | literal b =>
      have here := legible _ (Node.mem_visits _)
      have here' := legible' _ (Node.mem_visits _)
      exact congrArg literal (Literal.eq_of_told here here' title (Option.some.inj payload))
    | _ => cases kind
  | identifier name =>
    cases f with
    | identifier other => exact congrArg identifier (Option.some.inj payload)
    | _ => cases kind
  | binary op left right =>
    cases f with
    | binary op' left' right' =>
      obtain rfl := BinaryOp.spelling_injective (Option.some.inj payload)
      obtain ⟨rfl, rfl⟩ : left = left' ∧ right = right' := by
        simpa [branches, Branch.look, Node.bare] using looks
      rfl
    | _ => cases kind
  | unary op operand =>
    cases f with
    | unary op' operand' =>
      obtain rfl := UnaryOp.spelling_injective (Option.some.inj payload)
      obtain rfl : operand = operand' := by
        simpa [branches, Branch.look, Node.bare] using looks
      rfl
    | _ => cases kind
  | call callee es =>
    cases f with
    | call callee' fs =>
      obtain rfl : callee = callee' := Option.some.inj payload
      obtain rfl : es = fs := by
        cases es with
        | nil =>
          cases fs with
          | nil => rfl
          | cons f fs => cases looks
        | cons e es =>
          cases fs with
          | nil => cases looks
          | cons f fs => exact exprs_of_bare (Prod.mk.inj (List.cons.inj looks).1).2
      rfl
    | _ => cases kind

theorem Stmt.eq_of_told {s t : Stmt} (legible : (Node.stmt s).Legible) (legible' : (Node.stmt t).Legible)
    (heading : s.visit.heading = t.visit.heading)
    (looks : s.branches.map Branch.look = t.branches.map Branch.look) : s = t := by
  have kind := Visit.told_kind heading
  obtain ⟨-, payload⟩ := Visit.told heading
  cases s with
  | declaration name value =>
    cases t with
    | declaration other value' =>
      obtain rfl : name = other := Option.some.inj payload
      obtain rfl : value = value' := by simpa [branches, Branch.look, Node.bare] using looks
      rfl
    | _ => cases kind
  | assignment name value =>
    cases t with
    | assignment other value' =>
      obtain rfl : name = other := Option.some.inj payload
      obtain rfl : value = value' := by simpa [branches, Branch.look, Node.bare] using looks
      rfl
    | _ => cases kind
  | block body =>
    cases t with
    | block body' => exact congrArg block (stmts_of_bare (Prod.mk.inj (List.cons.inj looks).1).2)
    | _ => cases kind
  | ifThen condition consequent =>
    cases t with
    | ifThen condition' consequent' =>
      obtain ⟨rfl, rfl⟩ : condition = condition' ∧ consequent = consequent' := by
        simpa [branches, Branch.look, Node.bare] using looks
      rfl
    | ifThenElse => cases looks
    | _ => cases kind
  | ifThenElse condition consequent alternative =>
    cases t with
    | ifThenElse condition' consequent' alternative' =>
      obtain ⟨rfl, rfl, rfl⟩ :
          condition = condition' ∧ consequent = consequent' ∧ alternative = alternative' := by
        simpa [branches, Branch.look, Node.bare] using looks
      rfl
    | ifThen => cases looks
    | _ => cases kind
  | whileLoop condition body =>
    cases t with
    | whileLoop condition' body' =>
      obtain ⟨rfl, rfl⟩ : condition = condition' ∧ body = body' := by
        simpa [branches, Branch.look, Node.bare] using looks
      rfl
    | _ => cases kind
  | function name parameters body =>
    cases t with
    | function other parameters' body' =>
      have here := legible _ (Node.mem_visits _)
      have here' := legible' _ (Node.mem_visits _)
      obtain rfl : name = other := Option.some.inj payload
      obtain ⟨names, rfl⟩ : OutlineLabel.text (.parameters parameters) =
          OutlineLabel.text (.parameters parameters') ∧ body = body' := by
        simpa [branches, Branch.look, Node.bare] using looks
      obtain rfl := intercalate_injective here here' ((String.append_right_inj _).1 names)
      rfl
    | _ => cases kind
  | returnValue value =>
    cases t with
    | returnValue value' =>
      obtain rfl : value = value' := by simpa [branches, Branch.look, Node.bare] using looks
      rfl
    | _ => cases kind
  | expression value =>
    cases t with
    | expression value' =>
      obtain rfl : value = value' := by simpa [branches, Branch.look, Node.bare] using looks
      rfl
    | _ => cases kind

theorem Node.bare_of_told {n m : Node} (legible : n.Legible) (legible' : m.Legible)
    (heading : n.visit.heading = m.visit.heading)
    (looks : n.branches.map Branch.look = m.branches.map Branch.look) : n.bare = m.bare := by
  have kind := Visit.told_kind heading
  cases n with
  | program p =>
    cases m with
    | program q =>
      have statements := stmts_of_bare (Prod.mk.inj (List.cons.inj looks).1).2
      exact congrArg (fun statements => program ⟨statements⟩) statements
    | block body => cases kind
    | stmt s => cases s <;> cases kind
    | expr e => cases e <;> cases kind
  | block body =>
    cases m with
    | program q => cases kind
    | block other =>
      have same : Stmt.block body = .block other := Stmt.eq_of_told legible legible' heading looks
      exact congrArg stmt same
    | stmt s => exact congrArg stmt (Stmt.eq_of_told (s := .block body) legible legible' heading looks)
    | expr e => cases e <;> cases kind
  | stmt s =>
    cases m with
    | program q => cases s <;> cases kind
    | block body => exact congrArg stmt (Stmt.eq_of_told (t := .block body) legible legible' heading looks)
    | stmt t => exact congrArg stmt (Stmt.eq_of_told legible legible' heading looks)
    | expr e => cases s <;> cases e <;> cases kind
  | expr e =>
    cases m with
    | program q => cases e <;> cases kind
    | block body => cases e <;> cases kind
    | stmt s => cases s <;> cases e <;> cases kind
    | expr f => exact congrArg expr (Expr.eq_of_told legible legible' heading looks)

/-! Whole trees -/

theorem Node.told (n : Node) : n.Told := by
  induction n using branches_induction with
  | step n ih =>
    intro legible depth m rest rest' legible' h h' same
    rw [shown_eq, shown_eq, List.cons_append, List.cons_append] at same
    obtain ⟨first, same⟩ := List.cons_eq_cons.1 same
    have heading : n.visit.heading = m.visit.heading := (Prod.mk.inj first).2
    obtain ⟨looks, left⟩ := looks_told (Visit.told_kind heading) ih legible legible' h h' same
    exact ⟨bare_of_told legible legible' heading looks, left⟩

/-- Programs with one outline are one program, if their names and texts stand on one line, their
parameters are told apart by commas, and their doubles are numbers. -/
theorem Program.eq_of_print_eq {p q : Program} {depth : Nat} (lines : (Node.program p).OneLined)
    (lines' : (Node.program q).OneLined) (legible : (Node.program p).Legible)
    (legible' : (Node.program q).Legible) (same : p.print depth = q.print depth) : p = q := by
  have rows : (Node.program p).shown depth = (Node.program q).shown depth := by
    rw [Node.shown_of_print lines, Node.shown_of_print lines']
    exact congrArg (fun text => (Text.endedLines text).map Text.shownLine) same
  obtain ⟨bare, -⟩ := (Node.program p).told legible depth (.program q) [] [] legible' nofun nofun
    (by rw [rows])
  exact Node.program.inj bare

/-- A function of two parameters whose body holds a block. -/
def returning (x : Float) : Program :=
  ⟨[.function "f" ["a", "b"] [.block [.returnValue (.literal (.decimal x))]]]⟩

theorem returning_oneLined (x : Float) : (Node.program (returning x)).OneLined := by
  have texts : (Node.program (returning x)).texts = ["f", "a", "b"] := rfl
  rw [Node.OneLined, texts]
  decide

theorem returning_legible {x : Float} (number : x.isNaN = false) :
    (Node.program (returning x)).Legible := by
  have visits : (Node.program (returning x)).visits = [.program 1, .function "f" ["a", "b"], .block 1,
      .block 1, .returnValue, .literal (.decimal x)] := rfl
  rw [Node.Legible, visits]
  simp only [List.forall_mem_cons, Visit.Legible, number, true_and]
  exact ⟨by decide, List.forall_mem_nil _⟩

theorem Program.eq_of_print_eq_returning :
    (returning 2.5).print 0 = (returning (1.25 + 1.25)).print 0 ∧
      returning 2.5 = returning (1.25 + 1.25) := by
  have same : (returning 2.5).print 0 = (returning (1.25 + 1.25)).print 0 := by decide +kernel
  have number : (2.5 : Float).isNaN = false := by decide +kernel
  have number' : (1.25 + 1.25 : Float).isNaN = false := by decide +kernel
  exact ⟨same, eq_of_print_eq (returning_oneLined _) (returning_oneLined _) (returning_legible number)
    (returning_legible number') same⟩

end ScriptFrontend
