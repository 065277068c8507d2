import ScriptFrontend.Proofs.Decimal.Written
import ScriptFrontend.Proofs.Lexical.Lines
import ScriptFrontend.Proofs.Tally
import ScriptFrontend.Proofs.Tree.Branches
import ScriptFrontend.Tree.Census

/-!
# The lines of an outline

An outline that is printed with names and texts of one line each can be read back line by line. The
word before the first colon tells the name of a role from the kind of a node, and the lines that
stand for nodes are the calls of a walk through the tree, each indented by its depth.
-/
namespace ScriptFrontend

/-! Texts made of ended lines -/

/-- The lines that a line feed ends. A carriage return is a character of its line. -/
def Text.endedLines (s : String) : List String :=
  (pieces s.toList).dropLast.map String.ofList

theorem Text.endedLines_join {ls : List String} (plain : ∀ l ∈ ls, '\n' ∉ l.toList) :
    endedLines (String.join (ls.map (· ++ "\n"))) = ls := by
  induction ls with
  | nil => rfl
  | cons l ls ih =>
    have later := ih fun m mem => plain m (List.mem_cons_of_mem l mem)
    have split : (String.join ((l :: ls).map (· ++ "\n"))).toList =
        l.toList ++ '\n' :: (String.join (ls.map (· ++ "\n"))).toList := by
      rw [List.map_cons, String.join_cons, String.toList_append, String.toList_append,
        List.append_assoc]
      rfl
    rw [endedLines, split, pieces_lineFeed, pieces_plain (plain l List.mem_cons_self),
      List.dropLast_append_of_ne_nil (pieces_ne_nil _), List.map_append, ← endedLines, later,
      List.map_singleton, String.ofList_toList]
    rfl

/-- The word between the blanks at the front and the first colon. -/
def Text.leadingWord (l : String) : String :=
  String.ofList ((l.toList.dropWhile (· = ' ')).takeWhile (· ≠ ':'))

/-- A word that can stand in front of a colon. -/
def Text.IsWord (word : String) : Prop :=
  ' ' ∉ word.toList ∧ ':' ∉ word.toList ∧ '\n' ∉ word.toList

instance (word : String) : Decidable (Text.IsWord word) := inferInstanceAs (Decidable (_ ∧ _))

theorem Text.leadingWord_line (n : Nat) {word : String} (rest : String) (h : IsWord word) :
    leadingWord (blanks n ++ (word ++ ":" ++ rest)) = word := by
  obtain ⟨blank, colon, -⟩ := h
  have chars : (blanks n ++ (word ++ ":" ++ rest)).toList =
      List.replicate n ' ' ++ (word.toList ++ ':' :: rest.toList) := by
    simp [blanks, String.toList_append]
  have content : (word.toList ++ ':' :: rest.toList).dropWhile (· = ' ') =
      word.toList ++ ':' :: rest.toList := by
    cases front : word.toList with
    | nil => rfl
    | cons c cs =>
      have other : c ≠ ' ' := fun same => blank (front ▸ same ▸ List.mem_cons_self)
      rw [List.cons_append, List.dropWhile_cons_of_neg (by simpa using other)]
  have letters : ∀ c ∈ word.toList, decide (c ≠ ':') = true := fun c mem =>
    decide_eq_true fun same => colon (same ▸ mem)
  rw [leadingWord, chars, List.dropWhile_append_of_pos (by simp), content,
    List.takeWhile_append_of_pos letters, List.takeWhile_cons_of_neg (by decide), List.append_nil,
    String.ofList_toList]

/-! What a line says about a node -/

def Visit.title : Visit → String
  | literal (.integer _) => "IntegerLiteral"
  | literal (.decimal _) => "FloatLiteral"
  | literal (.text _) => "StringLiteral"
  | v => v.kind.label

def Visit.payload : Visit → Option String
  | program _ | conditional _ | whileLoop | returnValue | expression | block _ => none
  | declaration name | assignment name | function name _ | call name _ | identifier name => some name
  | binary op => some op.spelling
  | unary op => some op.spelling
  | literal value => some value.render

def Visit.remark (v : Visit) : String := v.payload.elim "" (" " ++ ·)

theorem append_colon {front word : String} (text : String) (same : front = word ++ ":" ++ " ") :
    front ++ text = word ++ ":" ++ (" " ++ text) := by
  rw [same, String.append_assoc]

theorem Visit.heading_eq (v : Visit) : v.heading = v.title ++ ":" ++ v.remark := by
  cases v with
  | declaration name | assignment name | function name _ | call name _ | identifier name =>
    exact append_colon name rfl
  | binary op => exact append_colon op.spelling rfl
  | unary op => exact append_colon op.spelling rfl
  | literal value => cases value <;> exact append_colon _ rfl
  | _ => exact String.append_empty.symm

/-- The names of the roles that children stand under. -/
def roleNames : List String :=
  ["Value", "Condition", "Then", "Else", "Body", "Parameters", "Left", "Right", "Arguments"]

theorem NodeKind.label_isWord (k : NodeKind) : Text.IsWord k.label ∧ k.label ∉ roleNames := by
  cases k <;> decide

theorem Visit.title_isWord (v : Visit) : Text.IsWord v.title ∧ v.title ∉ roleNames := by
  cases v with
  | literal value => cases value <;> simp [title, Text.IsWord, roleNames]
  | _ => exact NodeKind.label_isWord _

theorem OutlineLabel.word_isWord (l : OutlineLabel) : Text.IsWord l.word ∧ l.word ∈ roleNames := by
  cases l <;> simp [word, Text.IsWord, roleNames]

theorem OutlineLabel.exists_text_eq (l : OutlineLabel) : ∃ rest, l.text = l.word ++ ":" ++ rest := by
  cases l with
  | parameters names => exact ⟨_, append_colon (", ".intercalate names) rfl⟩
  | _ => exact ⟨"", String.append_empty.symm⟩

/-- What a row begins with: the name of the role, or the kind of the node. -/
def OutlineEntry.word : OutlineEntry → String
  | label l => l.word
  | header v => v.title

def OutlineEntry.isLabel : OutlineEntry → Bool
  | label _ => true
  | header _ => false

theorem OutlineEntry.word_isWord (e : OutlineEntry) : Text.IsWord e.word := by
  cases e with
  | label l => exact l.word_isWord.1
  | header v => exact v.title_isWord.1

theorem OutlineEntry.word_mem_roleNames (e : OutlineEntry) :
    e.word ∈ roleNames ↔ e.isLabel = true := by
  cases e with
  | label l => exact iff_of_true l.word_isWord.2 rfl
  | header v => exact iff_of_false v.title_isWord.2 Bool.false_ne_true

theorem OutlineEntry.exists_text_eq (e : OutlineEntry) : ∃ rest, e.text = e.word ++ ":" ++ rest := by
  cases e with
  | label l => exact l.exists_text_eq
  | header v => exact ⟨v.remark, v.heading_eq⟩

/-! Rows and lines -/

def OutlineRow.line (r : OutlineRow) : String := Text.blanks (2 * r.depth) ++ r.entry.text

/-- The line of a node: two blanks a level, the kind, and what else the visitor is told. -/
def Call.line (c : Call) : String :=
  Text.blanks (2 * c.depth) ++ (c.visit.title ++ ":" ++ c.visit.remark)

/-- The lines that stand for nodes, without those that name a role. -/
def nodeLines (s : String) : List String :=
  (Text.endedLines s).filter fun l => Text.leadingWord l ∉ roleNames

theorem Call.leadingWord_line (c : Call) : Text.leadingWord c.line = c.visit.title :=
  Text.leadingWord_line _ _ c.visit.title_isWord.1

theorem OutlineRow.header_line (depth : Nat) (v : Visit) :
    line ⟨depth, .header v⟩ = Call.line ⟨depth, v⟩ := by
  rw [line, OutlineEntry.text, v.heading_eq, Call.line]

theorem OutlineRow.nodeLines_rows (rows : List OutlineRow) :
    (rows.map line).filter (fun l => Text.leadingWord l ∉ roleNames) =
      (rows.filterMap call?).map Call.line := by
  induction rows with
  | nil => rfl
  | cons r rows ih =>
    obtain ⟨depth, entry⟩ := r
    -- the leading word of the line tells which of the two the row is
    cases entry with
    | label l =>
      obtain ⟨rest, text⟩ := l.exists_text_eq
      obtain ⟨isWord, role⟩ := l.word_isWord
      have word : Text.leadingWord (line ⟨depth, .label l⟩) = l.word := by
        rw [line, OutlineEntry.text, text]
        exact Text.leadingWord_line _ rest isWord
      have none : call? ⟨depth, .label l⟩ = none := rfl
      rw [List.map_cons, List.filter_cons_of_neg (by simpa [word] using role), ih,
        List.filterMap_cons_none none]
    | header v =>
      have same := header_line depth v
      have word : Text.leadingWord (Call.line ⟨depth, v⟩) = v.title := Call.leadingWord_line _
      have some : call? ⟨depth, .header v⟩ = some ⟨depth, v⟩ := rfl
      rw [List.map_cons, same, List.filter_cons_of_pos (by simpa [word] using v.title_isWord.2),
        ih, List.filterMap_cons_some some, List.map_cons]

/-! Names and texts on one line -/

/-- The names and the text that a visitor is told. -/
def Visit.texts : Visit → List String
  | declaration name | assignment name | call name _ | identifier name => [name]
  | function name parameters => name :: parameters
  | literal (.text content) => [content]
  | _ => []

/-- Every name in the tree, parameters included, and every text. -/
def Node.texts (n : Node) : List String := n.visits.flatMap Visit.texts

/-- No name and no text of the tree holds a line feed. -/
def Node.OneLined (n : Node) : Prop := ∀ t ∈ n.texts, '\n' ∉ t.toList

theorem Node.visit_texts (n : Node) : n.visit.texts ⊆ n.texts :=
  fun _ mem => List.mem_flatMap.mpr ⟨n.visit, n.mem_visits, mem⟩

theorem Node.child_texts {n m : Node} {b : Branch} (branch : b ∈ n.branches) (node : m ∈ b.nodes) :
    m.texts ⊆ n.texts := by
  intro t mem
  obtain ⟨v, visit, text⟩ := List.mem_flatMap.mp mem
  exact List.mem_flatMap.mpr ⟨v, mem_visits_of_child branch node visit, text⟩

/-! Control characters: none of them is written but those in names and texts -/

section Control
variable {c : Char}

theorem Text.not_mem_append {a b : String} (front : c ∉ a.toList) (rest : c ∉ b.toList) :
    c ∉ (a ++ b).toList := by
  rw [String.toList_append, List.mem_append, not_or]
  exact ⟨front, rest⟩

theorem Visit.title_visible (v : Visit) : Text.Visible v.title.toList := by
  have label (k : NodeKind) : Text.Visible k.label.toList := by cases k <;> decide
  cases v with
  | literal value =>
    have word : ∀ t ∈ ["IntegerLiteral", "FloatLiteral", "StringLiteral"], Text.Visible t.toList := by
      decide
    cases value <;> exact word _ (by simp [title])
  | _ => exact label _

theorem BinaryOp.spelling_visible (op : BinaryOp) : Text.Visible op.spelling.toList := by
  cases op <;> decide

theorem UnaryOp.spelling_visible (op : UnaryOp) : Text.Visible op.spelling.toList := by
  cases op <;> decide

theorem Visit.not_mem_payload {v : Visit} (control : c < ' ') (h : ∀ t ∈ v.texts, c ∉ t.toList)
    {text : String} (told : v.payload = some text) : c ∉ text.toList := by
  cases v with
  | declaration name | assignment name | function name _ | call name _ | identifier name =>
    cases told
    exact h text List.mem_cons_self
  | binary op =>
    cases told
    exact op.spelling_visible.not_mem control
  | unary op =>
    cases told
    exact op.spelling_visible.not_mem control
  | literal value =>
    cases told
    cases value with
    | integer value => exact (Decimal.visible_int value).not_mem control
    | decimal value => exact (Decimal.visible_text value).not_mem control
    | text content => exact h content List.mem_cons_self
  | _ => cases told

theorem Visit.not_mem_heading {v : Visit} (control : c < ' ') (h : ∀ t ∈ v.texts, c ∉ t.toList) :
    c ∉ v.heading.toList := by
  have title := v.title_visible.not_mem control
  have colon : c ∉ ":".toList := Text.Visible.not_mem (by decide) control
  have remark : c ∉ v.remark.toList := by
    rw [Visit.remark]
    cases told : v.payload with
    | none => exact List.not_mem_nil
    | some text =>
      have blank : c ∉ " ".toList := Text.Visible.not_mem (by decide) control
      exact Text.not_mem_append blank (not_mem_payload control h told)
  rw [v.heading_eq]
  exact Text.not_mem_append (Text.not_mem_append title colon) remark

theorem not_mem_intercalate (control : c < ' ') {names : List String} (h : ∀ t ∈ names, c ∉ t.toList) :
    c ∉ (", ".intercalate names).toList := by
  have comma : c ∉ ", ".toList := Text.Visible.not_mem (by decide) control
  induction names with
  | nil => exact List.not_mem_nil
  | cons t names ih =>
    have first := h t List.mem_cons_self
    have later := ih fun u mem => h u (List.mem_cons_of_mem t mem)
    cases names with
    | nil => simpa using first
    | cons u names =>
      rw [String.intercalate_cons_cons]
      exact Text.not_mem_append (Text.not_mem_append first comma) later

theorem OutlineLabel.not_mem_text {l : OutlineLabel} (control : c < ' ')
    (h : ∀ names, l = .parameters names → ∀ t ∈ names, c ∉ t.toList) : c ∉ l.text.toList := by
  cases l with
  | parameters names =>
    have word : c ∉ "Parameters: ".toList := Text.Visible.not_mem (by decide) control
    exact Text.not_mem_append word (not_mem_intercalate control (h names rfl))
  | _ => exact Text.Visible.not_mem (by decide) control

/-- Only a function has parameters, and its visitor is told them. -/
theorem Node.mem_texts_of_parameters {n : Node} {b : Branch} (branch : b ∈ n.branches)
    {names : List String} (role : b.role = some (.parameters names)) :
    ∀ t ∈ names, t ∈ n.visit.texts := by
  cases n with
  | program p => grind [branches]
  | block body => grind [branches]
  | stmt s => cases s <;> grind [branches, Stmt.branches, visit, Stmt.visit, Visit.texts]
  | expr e =>
    cases e with
    | call callee es => cases es <;> grind [branches, Expr.branches]
    | _ => grind [branches, Expr.branches]

theorem Node.not_mem_outline (control : c < ' ') {n : Node} (h : ∀ t ∈ n.texts, c ∉ t.toList)
    (depth : Nat) : ∀ r ∈ n.outline depth, c ∉ r.line.toList := by
  have behindBlanks {k : Nat} {text : String} (plain : c ∉ text.toList) :
      c ∉ (Text.blanks (2 * k) ++ text).toList := by
    have blanks : Text.Visible (List.replicate (2 * k) ' ') := fun d mem =>
      (List.eq_of_mem_replicate mem).symm ▸ Char.le_refl ' '
    refine Text.not_mem_append ?_ plain
    rw [Text.blanks, String.toList_ofList]
    exact blanks.not_mem control
  induction n using Node.branches_induction generalizing depth with
  | step n ih =>
    have visit : ∀ t ∈ n.visit.texts, c ∉ t.toList := fun t mem => h t (n.visit_texts mem)
    rw [Node.outline_eq]
    intro r mem
    rcases List.mem_cons.mp mem with rfl | mem
    · exact behindBlanks (Visit.not_mem_heading control visit)
    · obtain ⟨b, branch, mem⟩ := List.mem_flatMap.mp mem
      rcases List.mem_append.mp mem with heading | below
      · obtain ⟨l, role, rfl⟩ := List.mem_map.mp heading
        apply behindBlanks
        apply OutlineLabel.not_mem_text control
        rintro names rfl t inside
        exact visit t (Node.mem_texts_of_parameters branch (Option.mem_toList.mp role) t inside)
      · obtain ⟨m, node, mem⟩ := List.mem_flatMap.mp below
        have child : ∀ t ∈ m.texts, c ∉ t.toList := fun t text => h t (child_texts branch node text)
        exact ih b branch m node child _ r mem

end Control

/-! Counts -/

theorem Census.total_add (c : Census) (n : Node) : (c.add n).total = c.total + n.visits.length := by
  rw [add, Tally.total_bumpAll, List.length_map]

/-! Printed outlines -/

theorem renderOutline_eq (rows : List OutlineRow) :
    renderOutline rows = String.join ((rows.map OutlineRow.line).map (· ++ "\n")) := by
  rw [renderOutline, List.map_map]
  rfl

theorem Node.endedLines_print {n : Node} (h : n.OneLined) (depth : Nat) :
    Text.endedLines (n.print depth) = (n.outline depth).map OutlineRow.line := by
  have plain : ∀ l ∈ (n.outline depth).map OutlineRow.line, '\n' ∉ l.toList := by
    intro l mem
    obtain ⟨r, row, rfl⟩ := List.mem_map.mp mem
    exact Node.not_mem_outline (by decide) h depth r row
  rw [print, renderOutline_eq, Text.endedLines_join plain]

theorem OutlineRow.lower_line (levels : Nat) (r : OutlineRow) :
    (r.lower levels).line = Text.blanks (2 * levels) ++ r.line := by
  have blanks : Text.blanks (2 * (levels + r.depth)) =
      Text.blanks (2 * levels) ++ Text.blanks (2 * r.depth) := by
    rw [Text.blanks, Text.blanks, Text.blanks, ← String.ofList_append, List.replicate_append_replicate,
      Nat.mul_add]
  rw [line, lower, blanks, String.append_assoc]
  rfl

theorem renderOutline_append (rows more : List OutlineRow) :
    renderOutline (rows ++ more) = renderOutline rows ++ renderOutline more := by
  rw [renderOutline, List.map_append, String.join_append]
  rfl

theorem renderOutline_flatMap {α : Type} (l : List α) (f : α → List OutlineRow) :
    renderOutline (l.flatMap f) = String.join (l.map fun x => renderOutline (f x)) := by
  induction l with
  | nil => rfl
  | cons x l ih => rw [List.flatMap_cons, renderOutline_append, ih, List.map_cons, String.join_cons]

/-- The line with the name of the role, if there is one. -/
def Branch.print (depth : Nat) (b : Branch) : String :=
  b.role.elim "" fun role => Text.blanks (2 * depth) ++ role.text ++ "\n"

theorem Branch.renderOutline_heading (depth : Nat) (b : Branch) :
    renderOutline (b.heading depth) = b.print depth := by
  obtain ⟨role, nodes⟩ := b
  cases role with
  | none => rfl
  | some role => exact String.empty_append

/-- A tree is printed as the line of its root and, for every group of children, the line with the
name of their role and the children below it. -/
theorem Node.print_eq (depth : Nat) (n : Node) :
    n.print depth =
      Call.line ⟨depth, n.visit⟩ ++ "\n" ++ String.join (n.branches.map fun b =>
        b.print (depth + 1) ++ String.join (b.nodes.map (print (depth + b.levels)))) := by
  have head : OutlineRow.render ⟨depth, .header n.visit⟩ = Call.line ⟨depth, n.visit⟩ ++ "\n" := by
    rw [← OutlineRow.header_line]
    rfl
  have below (b : Branch) : renderOutline (b.heading (depth + 1) ++
        b.nodes.flatMap (outline (depth + b.levels))) =
      b.print (depth + 1) ++ String.join (b.nodes.map (print (depth + b.levels))) := by
    rw [renderOutline_append, b.renderOutline_heading, renderOutline_flatMap]
    rfl
  rw [print, outline_eq, renderOutline, List.map_cons, String.join_cons, head, ← renderOutline,
    renderOutline_flatMap]
  simp only [below]

/-- The outline of a tree, read line by line, is the walk through it; it has a line for every node
that is counted, and a greater depth moves every line to the right. The name of a role stands
between a node and the children that lie two levels below it. -/
theorem Node.print_nodeLines (n : Node) (depth : Nat) (h : n.OneLined) :
    nodeLines (n.print depth) = (n.walk depth).map Call.line ∧
      (n.walk depth).map Call.visit = n.visits ∧
      n.print depth = Call.line ⟨depth, n.visit⟩ ++ "\n" ++ String.join (n.branches.map fun b =>
        b.print (depth + 1) ++ String.join (b.nodes.map (print (depth + b.levels)))) ∧
      (Census.empty.add n).total = (nodeLines (n.print depth)).length ∧
      n.print depth = String.join ((Text.endedLines (n.print 0)).map fun l =>
        Text.blanks (2 * depth) ++ l ++ "\n") := by
  have lines : nodeLines (n.print depth) = (n.walk depth).map Call.line := by
    rw [nodeLines, endedLines_print h, OutlineRow.nodeLines_rows, outline_calls]
  refine ⟨lines, n.walk_visits depth, n.print_eq depth, ?_, ?_⟩
  · rw [lines, Census.total_add, ← n.walk_visits depth, List.length_map, List.length_map]
    exact Nat.zero_add _
  · rw [endedLines_print h, print, renderOutline, ← Nat.add_zero depth, n.outline_add depth 0,
      List.map_map, List.map_map, Nat.add_zero]
    congr 2
    funext r
    exact congrArg (· ++ "\n") (r.lower_line depth)

/-- A body that stands alone, with every way of nesting children. -/
def nestedBlocks : Node :=
  .stmt (.block [
    .ifThenElse (.call "f" [.literal (.integer 1), .unary .negate (.identifier "x")])
      [.function "g" ["a", "b"] []] [.block []]])

theorem Node.print_nodeLines_nestedBlocks :
    nestedBlocks.OneLined ∧ nodeLines (nestedBlocks.print 1) =
      ["  Block:", "    IfStatement:", "        CallExpression: f", "            IntegerLiteral: 1",
        "            UnaryOp: -", "              Identifier: x", "        Block:",
        "          FunctionDeclaration: g", "              Block:", "        Block:",
        "          Block:"] := by
  have names : nestedBlocks.OneLined := by
    rw [OneLined]
    decide
  have walk : nestedBlocks.walk 1 =
      [⟨1, .block 1⟩, ⟨2, .conditional true⟩, ⟨4, .call "f" 2⟩, ⟨6, .literal (.integer 1)⟩,
        ⟨6, .unary .negate⟩, ⟨7, .identifier "x"⟩, ⟨4, .block 1⟩, ⟨5, .function "g" ["a", "b"]⟩,
        ⟨7, .block 0⟩, ⟨4, .block 1⟩, ⟨5, .block 0⟩] := by
    simp [walk_eq, nestedBlocks, branches, Stmt.branches, Expr.branches, Branch.levels, visit,
      Stmt.visit, Expr.visit]
  refine ⟨names, (nestedBlocks.print_nodeLines 1 names).1.trans ?_⟩
  rw [walk]
  decide

end ScriptFrontend
