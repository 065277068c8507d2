import ScriptFrontend.Proofs.Decimal.Distinct
import ScriptFrontend.Proofs.Tree.OutlineLines

/-!
# What a line tells about its node

A line of an outline shows how deep its row lies, and the text of the row. The heading of a node tells
its kind and the name, the operator or the value that it carries: numbers are written apart, and
parameters are told apart by the commas between them.
-/
namespace ScriptFrontend

/-! What a row shows -/

/-- What can be seen of a row: how far it is indented, and its text. -/
def OutlineRow.shown (r : OutlineRow) : Nat × String := (r.depth, r.entry.text)

/-- The same, read from the line. -/
def Text.shownLine (l : String) : Nat × String :=
  ((l.toList.takeWhile (· = ' ')).length / 2, String.ofList (l.toList.dropWhile (· = ' ')))

theorem OutlineEntry.text_flush (e : OutlineEntry) :
    e.text.toList.takeWhile (· = ' ') = [] ∧ e.text.toList.dropWhile (· = ' ') = e.text.toList := by
  obtain ⟨rest, split⟩ := e.exists_text_eq
  obtain ⟨blank, -⟩ := e.word_isWord
  rw [split, String.toList_append, String.toList_append]
  cases front : e.word.toList with
  | nil => exact ⟨rfl, rfl⟩
  | cons c cs =>
    have other : c ≠ ' ' := fun same => blank (front ▸ same ▸ List.mem_cons_self)
    simp [other]

theorem OutlineRow.shownLine_line (r : OutlineRow) : Text.shownLine r.line = r.shown := by
  obtain ⟨none, all⟩ := r.entry.text_flush
  have chars : r.line.toList = List.replicate (2 * r.depth) ' ' ++ r.entry.text.toList := by
    simp [line, Text.blanks, String.toList_append]
  have blanks : ∀ c ∈ List.replicate (2 * r.depth) ' ', decide (c = ' ') = true := by simp
  rw [Text.shownLine, chars, List.takeWhile_append_of_pos blanks, List.dropWhile_append_of_pos blanks,
    none, all, List.append_nil, List.length_replicate, Nat.mul_div_cancel_left _ (by decide),
    String.ofList_toList, shown]

/-! What an outline shows -/

def Node.shown (depth : Nat) (n : Node) : List (Nat × String) := (n.outline depth).map OutlineRow.shown

def Branch.shown (depth : Nat) (b : Branch) : List (Nat × String) :=
  b.role.toList.map (fun role => (depth + 1, role.text)) ++
    b.nodes.flatMap (Node.shown (depth + b.levels))

theorem Node.shown_eq (depth : Nat) (n : Node) :
    n.shown depth = (depth, n.visit.heading) :: n.branches.flatMap (Branch.shown depth) := by
  rw [shown, outline_eq, List.map_cons, List.map_flatMap]
  congr 1
  refine List.flatMap_congr fun b _ => ?_
  rw [List.map_append, List.map_flatMap, Branch.heading, List.map_map]
  rfl

theorem Node.shown_of_print {n : Node} (h : n.OneLined) (depth : Nat) :
    n.shown depth = (Text.endedLines (n.print depth)).map Text.shownLine := by
  rw [endedLines_print h, List.map_map, shown]
  exact List.map_congr_left fun r _ => r.shownLine_line.symm

/-! What a heading tells -/

theorem Visit.kind_eq (v : Visit) : v.kind = (NodeKind.ofLabel? v.title).getD .literal := by
  cases v with
  | literal value => cases value <;> rfl
  | _ => rfl

theorem Visit.remark_injective {a b : Option String}
    (same : a.elim "" (" " ++ ·) = b.elim "" (" " ++ ·)) : a = b := by
  have filled (t : String) : " " ++ t ≠ "" := fun empty => by
    have chars := congrArg String.toList empty
    rw [String.toList_append] at chars
    cases chars
  cases a with
  | none =>
    cases b with
    | none => rfl
    | some u => exact absurd same.symm (filled u)
  | some t =>
    cases b with
    | none => exact absurd same (filled t)
    | some u => exact congrArg some ((String.append_right_inj " ").1 same)

theorem Visit.told {v w : Visit} (same : v.heading = w.heading) :
    v.title = w.title ∧ v.payload = w.payload := by
  have word (u : Visit) : Text.leadingWord u.heading = u.title := by
    have front := Text.leadingWord_line 0 u.remark u.title_isWord.1
    rwa [show Text.blanks 0 = "" from rfl, String.empty_append, ← u.heading_eq] at front
  have title : v.title = w.title := by rw [← word v, same, word w]
  refine ⟨title, ?_⟩
  rw [v.heading_eq, w.heading_eq, title, String.append_right_inj] at same
  exact remark_injective same

theorem Visit.told_kind {v w : Visit} (same : v.heading = w.heading) : v.kind = w.kind := by
  rw [v.kind_eq, w.kind_eq, (told same).1]

/-! Names and numbers that a line tells apart -/

/-- Parameters that a comma can separate, and doubles that are numbers. -/
def Visit.Legible : Visit → Prop
  | function _ parameters => ∀ name ∈ parameters, name ≠ "" ∧ ',' ∉ name.toList
  | literal (.decimal value) => value.isNaN = false
  | _ => True

def Node.Legible (n : Node) : Prop := ∀ v ∈ n.visits, v.Legible

theorem Node.Legible.child {n m : Node} {b : Branch} (h : n.Legible) (branch : b ∈ n.branches)
    (node : m ∈ b.nodes) : m.Legible :=
  fun v visit => h v (mem_visits_of_child branch node visit)

/-- A parameter runs to the first comma, which is there unless it is the last one. -/
theorem toList_intercalate_cons (t : String) (ts : List String) :
    (", ".intercalate (t :: ts)).toList =
      t.toList ++ if ts = [] then [] else ',' :: ' ' :: (", ".intercalate ts).toList := by
  cases ts with
  | nil => simp
  | cons u ts => simp [String.intercalate_cons_cons, String.toList_append]

theorem intercalate_injective {names others : List String}
    (h : ∀ name ∈ names, name ≠ "" ∧ ',' ∉ name.toList)
    (h' : ∀ name ∈ others, name ≠ "" ∧ ',' ∉ name.toList)
    (same : ", ".intercalate names = ", ".intercalate others) : names = others := by
  have filled {t : String} (ts : List String) (named : t ≠ "") : ", ".intercalate (t :: ts) ≠ "" := by
    intro empty
    have chars := toList_intercalate_cons t ts
    rw [empty, String.toList_empty] at chars
    exact named (String.toList_eq_nil_iff.1 (List.append_eq_nil_iff.1 chars.symm).1)
  have word {t : String} (ts : List String) (plain : ',' ∉ t.toList) :
      (", ".intercalate (t :: ts)).toList.takeWhile (· ≠ ',') = t.toList := by
    have letters : ∀ c ∈ t.toList, decide (c ≠ ',') = true := fun c mem =>
      decide_eq_true fun comma => plain (comma ▸ mem)
    rw [toList_intercalate_cons, List.takeWhile_append_of_pos letters]
    split <;> simp
  induction names generalizing others with
  | nil =>
    cases others with
    | nil => rfl
    | cons u us => exact absurd same.symm (filled us (h' u List.mem_cons_self).1)
  | cons t ts ih =>
    cases others with
    | nil => exact absurd same (filled ts (h t List.mem_cons_self).1)
    | cons u us =>
      obtain ⟨⟨-, plain⟩, others⟩ := List.forall_mem_cons.1 h
      obtain ⟨⟨-, plain'⟩, others'⟩ := List.forall_mem_cons.1 h'
      have first : t = u := by
        rw [← String.toList_inj, ← word ts plain, same, word us plain']
      have chars := congrArg String.toList same
      rw [toList_intercalate_cons, toList_intercalate_cons, first, List.append_cancel_left_eq] at chars
      have later : ts = us := by
        split at chars <;> split at chars
        · rename_i last last'
          rw [last, last']
        · cases chars
        · cases chars
        · obtain ⟨-, behind⟩ := List.cons_eq_cons.1 chars
          exact ih others others' (String.toList_inj.1 (List.cons_eq_cons.1 behind).2)
      rw [first, later]

theorem Literal.eq_of_told {a b : Literal} (legible : (Visit.literal a).Legible)
    (legible' : (Visit.literal b).Legible) (title : (Visit.literal a).title = (Visit.literal b).title)
    (render : a.render = b.render) : a = b := by
  cases a with
  | integer i =>
    cases b with
    | integer j => exact congrArg integer (Int.repr_inj.1 render)
    | _ => simp [Visit.title] at title
  | decimal x =>
    cases b with
    | decimal y => exact congrArg decimal (Decimal.text_injective legible legible' render)
    | _ => simp [Visit.title] at title
  | text t =>
    cases b with
    | text u => exact congrArg text render
    | _ => simp [Visit.title] at title

theorem BinaryOp.spelling_injective {op other : BinaryOp} (same : op.spelling = other.spelling) :
    op = other := by
  have read (op : BinaryOp) : ofSpelling? op.spelling = some op := by cases op <;> decide
  exact Option.some.inj ((read op).symm.trans (same ▸ read other))

theorem UnaryOp.spelling_injective {op other : UnaryOp} (same : op.spelling = other.spelling) :
    op = other := by
  have read (op : UnaryOp) : ofSpelling? op.spelling = some op := by cases op <;> decide
  exact Option.some.inj ((read op).symm.trans (same ▸ read other))

end ScriptFrontend
