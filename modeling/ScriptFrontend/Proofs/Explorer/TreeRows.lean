import Mathlib.Algebra.BigOperators.Group.List.Basic
import Mathlib.Algebra.Ring.Nat
import ScriptFrontend.Explorer.State
import ScriptFrontend.Proofs.Explorer.Highlighting
import ScriptFrontend.Proofs.Tree.Counting
import ScriptFrontend.Proofs.Tree.OutlineLines

/-!
# The rows of the tree pane

The pane knows only the printed outline and tells from the text of a line what it stands for. It is
never wrong, whatever names and texts the tree holds: what comes before the first colon of a line is
the name of a role or the kind of a node, and no word is both.
-/
namespace ScriptFrontend

/-! Styled lines -/

namespace TreePane

/-- The spans of a line make up the line, with or without a colon. -/
theorem text_styleLine (text : String) : StyledLine.text (styleLine text) = text := by
  have indented := List.takeWhile_append_dropWhile (p := Unicode.isBlank) (l := text.toList)
  rw [← String.toList_inj, StyledLine.toList_text]
  unfold styleLine
  dsimp only
  generalize text.toList.takeWhile Unicode.isBlank = indentation at indented ⊢
  generalize text.toList.dropWhile Unicode.isBlank = content at indented ⊢
  have divided := List.takeWhile_append_dropWhile (p := (· ≠ ':')) (l := content)
  generalize content.takeWhile (· ≠ ':') = kind at divided ⊢
  cases behind : content.dropWhile (· ≠ ':') with
  | nil => exact List.append_nil _
  | cons c rest =>
    have first := List.head?_dropWhile_not (· ≠ ':') content
    rw [behind] at divided first
    have colon : c = ':' := by simpa using first
    rw [colon] at divided
    rw [← indented, ← divided]
    simp

theorem styleLine_eq {text : String} {indentation kind rest : List Char}
    (chars : text.toList = indentation ++ (kind ++ ':' :: rest))
    (blank : ∀ c ∈ indentation, Unicode.isBlank c = true)
    (solid : ∀ c ∈ kind, Unicode.isBlank c = false) (plain : ':' ∉ kind) :
    styleLine text =
      [⟨String.ofList indentation, .plain⟩,
        ⟨String.ofList kind, kindStyle (String.ofList kind)⟩, ⟨":", Theme.dimmed⟩,
        ⟨String.ofList rest, Theme.code⟩] := by
  have flush : (kind ++ ':' :: rest).takeWhile Unicode.isBlank = [] ∧
      (kind ++ ':' :: rest).dropWhile Unicode.isBlank = kind ++ ':' :: rest := by
    cases kind with
    | nil => exact ⟨rfl, rfl⟩
    | cons c cs =>
      have other := solid c List.mem_cons_self
      simp [other]
  have letters : ∀ c ∈ kind, decide (c ≠ ':') = true := fun c mem =>
    decide_eq_true fun same => plain (same ▸ mem)
  have word : (kind ++ ':' :: rest).takeWhile (· ≠ ':') = kind := by
    rw [List.takeWhile_append_of_pos letters, List.takeWhile_cons_of_neg (by decide), List.append_nil]
  have behind : (kind ++ ':' :: rest).dropWhile (· ≠ ':') = ':' :: rest := by
    rw [List.dropWhile_append_of_pos letters, List.dropWhile_cons_of_neg (by decide)]
  unfold styleLine
  dsimp only
  rw [chars, List.takeWhile_append_of_pos blank, List.dropWhile_append_of_pos blank, flush.1,
    flush.2, word, behind, List.append_nil]

end TreePane

/-! Labels and headers -/

/-- No word that a row begins with holds a blank of any kind. -/
theorem OutlineEntry.word_solid (e : OutlineEntry) :
    ∀ c ∈ e.word.toList, Unicode.isBlank c = false := by
  suffices solid : e.word.toList.any Unicode.isBlank = false by simpa using solid
  have label (k : NodeKind) : k.label.toList.any Unicode.isBlank = false := by cases k <;> decide
  have literal : ∀ t ∈ ["IntegerLiteral", "FloatLiteral", "StringLiteral"],
      t.toList.any Unicode.isBlank = false := by decide
  have role : ∀ t ∈ roleNames, t.toList.any Unicode.isBlank = false := by decide
  cases e with
  | label l => exact role _ l.word_isWord.2
  | header v =>
    cases v with
    | literal value => cases value <;> exact literal _ (by simp [word, Visit.title])
    | _ => exact label _

theorem OutlineEntry.kindStyle_word (e : OutlineEntry) :
    TreePane.kindStyle e.word = if e.isLabel then Theme.dimmed else Theme.nodeKind := by
  have role : (e.word ∈ TreePane.roleWords) = (e.isLabel = true) := propext e.word_mem_roleNames
  simp only [TreePane.kindStyle, role]

theorem OutlineRow.exists_styleLine_eq (r : OutlineRow) :
    ∃ rest, TreePane.styleLine r.line =
      [⟨Text.blanks (2 * r.depth), .plain⟩,
        ⟨r.entry.word, if r.entry.isLabel then Theme.dimmed else Theme.nodeKind⟩,
        ⟨":", Theme.dimmed⟩, ⟨rest, Theme.code⟩] := by
  obtain ⟨rest, text⟩ := r.entry.exists_text_eq
  have chars : r.line.toList =
      List.replicate (2 * r.depth) ' ' ++ (r.entry.word.toList ++ ':' :: rest.toList) := by
    simp [line, text, Text.blanks, String.toList_append]
  have blank : ∀ c ∈ List.replicate (2 * r.depth) ' ', Unicode.isBlank c = true := fun c mem => by
    rw [List.eq_of_mem_replicate mem]
    rfl
  refine ⟨rest, ?_⟩
  rw [TreePane.styleLine_eq chars blank r.entry.word_solid r.entry.word_isWord.2.1,
    String.ofList_toList, String.ofList_toList, r.entry.kindStyle_word]
  rfl

/-! Rows of a tree, counted -/

/-- The names of roles in a tree: those that stand between its nodes and their children. -/
def Node.labels (n : Node) : List OutlineLabel :=
  n.subnodes.flatMap fun m => m.branches.filterMap Branch.role

theorem Node.labels_eq (n : Node) :
    n.labels = n.branches.flatMap (fun b => b.role.toList) ++
      n.branches.flatMap fun b => b.nodes.flatMap labels := by
  have below : (n.branches.flatMap fun b => b.nodes.flatMap subnodes).flatMap
        (fun m => m.branches.filterMap Branch.role) =
      n.branches.flatMap fun b => b.nodes.flatMap labels := by
    simp only [List.flatMap_assoc]
    rfl
  rw [labels, subnodes_eq, List.flatMap_cons, below, List.filterMap_eq_flatMap_toList]

theorem Node.length_outline (depth : Nat) (n : Node) :
    (n.outline depth).length = n.subnodes.length + n.labels.length := by
  induction n using Node.branches_induction generalizing depth with
  | step n ih =>
    have nodes (b : Branch) (branch : b ∈ n.branches) :
        (b.nodes.flatMap (outline (depth + b.levels))).length =
          (b.nodes.flatMap subnodes).length + (b.nodes.flatMap labels).length := by
      rw [List.length_flatMap, List.length_flatMap, List.length_flatMap, ← List.sum_map_add]
      exact congrArg List.sum (List.map_congr_left fun m node => ih b branch m node _)
    have branches : (n.branches.map fun b => (b.heading (depth + 1) ++
          b.nodes.flatMap (outline (depth + b.levels))).length) =
        n.branches.map fun b => b.role.toList.length +
          ((b.nodes.flatMap subnodes).length + (b.nodes.flatMap labels).length) :=
      List.map_congr_left fun b branch => by
        rw [List.length_append, nodes b branch, Branch.heading, List.length_map]
    rw [outline_eq, subnodes_eq, labels_eq, List.length_cons, List.length_cons, List.length_append,
      List.length_flatMap, List.length_flatMap, List.length_flatMap, List.length_flatMap, branches,
      List.sum_map_add, List.sum_map_add]
    omega

/-! The lines that the explorer holds -/

theorem OutlineRow.isLine {p : Program}
    (plain : ∀ t ∈ (Node.program p).texts, '\n' ∉ t.toList ∧ '\r' ∉ t.toList) {r : OutlineRow}
    (row : r ∈ p.outline 0) : Text.IsLine r.line := by
  have feed : '\n' ∉ r.line.toList :=
    Node.not_mem_outline (by decide) (fun t mem => (plain t mem).1) 0 r row
  have carriage : '\r' ∉ r.line.toList :=
    Node.not_mem_outline (by decide) (fun t mem => (plain t mem).2) 0 r row
  exact ⟨feed, fun last => carriage (List.mem_of_getLast? last)⟩

theorem Explorer.treeLines_eq (source : String) {o : ParseOutcome}
    (plain : ∀ t ∈ (Node.program o.program).texts, '\n' ∉ t.toList ∧ '\r' ∉ t.toList) :
    (Explorer.start source o).subject.treeLines = (o.program.outline 0).map OutlineRow.line := by
  have lines : ∀ l ∈ (o.program.outline 0).map OutlineRow.line, Text.IsLine l := by
    intro l mem
    obtain ⟨r, row, rfl⟩ := List.mem_map.mp mem
    exact OutlineRow.isLine plain row
  change Text.lines (o.program.print 0) = _
  rw [Program.print, renderOutline_eq, Text.lines_join lines]

/-- The lines of a tree on the pane are the rows of its outline: as many as it has nodes and names of
roles. Each is cut into its indentation, which has no style, the word in front of the first colon, the
colon and the rest, without losing a character. The word steps back exactly if the row names a role and
stands out exactly if it is a node's. -/
theorem Explorer.treeLines_classified (source : String) (o : ParseOutcome)
    (plain : ∀ t ∈ (Node.program o.program).texts, '\n' ∉ t.toList ∧ '\r' ∉ t.toList) :
    let lines := (Explorer.start source o).subject.treeLines
    let rows := o.program.outline 0
    lines = rows.map OutlineRow.line ∧
      lines.length =
        (Node.program o.program).subnodes.length + (Node.program o.program).labels.length ∧
      ∀ r ∈ rows, StyledLine.text (TreePane.styleLine r.line) = r.line ∧
        ∃ style rest,
          TreePane.styleLine r.line =
            [⟨Text.blanks (2 * r.depth), .plain⟩, ⟨r.entry.word, style⟩, ⟨":", Theme.dimmed⟩,
              ⟨rest, Theme.code⟩] ∧
          (style = Theme.dimmed ↔ ∃ l, r.entry = .label l) ∧
          (style = Theme.nodeKind ↔ ∃ v, r.entry = .header v) := by
  intro lines rows
  have shown : lines = rows.map OutlineRow.line := treeLines_eq source plain
  refine ⟨shown, ?_, fun r _ => ⟨TreePane.text_styleLine r.line, ?_⟩⟩
  · rw [shown, List.length_map]
    exact Node.length_outline 0 (.program o.program)
  · obtain ⟨rest, cut⟩ := r.exists_styleLine_eq
    have apart : Theme.dimmed ≠ Theme.nodeKind := by decide
    refine ⟨_, rest, cut, ?_⟩
    cases r.entry with
    | label l => exact ⟨iff_of_true rfl ⟨l, rfl⟩, iff_of_false apart nofun⟩
    | header v => exact ⟨iff_of_false apart.symm nofun, iff_of_true rfl ⟨v, rfl⟩⟩

/-- A tree whose names and texts look like rows of an outline. -/
def rowLike : Program :=
  ⟨[.declaration "" (.literal (.text "Left: 1")), .expression (.call "Value" [.identifier " a:"])]⟩

theorem Explorer.treeLines_classified_rowLike :
    (∀ t ∈ (Node.program rowLike).texts, '\n' ∉ t.toList ∧ '\r' ∉ t.toList) ∧
      (Explorer.start "" ⟨rowLike, []⟩).subject.treeLines =
        ["Program:", "  VarDeclaration: ", "    Value:", "      StringLiteral: Left: 1",
          "  ExpressionStatement:", "    CallExpression: Value", "      Arguments:",
          "        Identifier:  a:"] := by
  have plain : ∀ t ∈ (Node.program rowLike).texts, '\n' ∉ t.toList ∧ '\r' ∉ t.toList := by decide
  exact ⟨plain, (treeLines_classified "" ⟨rowLike, []⟩ plain).1.trans (by decide)⟩

end ScriptFrontend
