import ScriptFrontend.Proofs.Explorer.Runs
import ScriptFrontend.Proofs.Lexical.Lines

/-!
# Scrolling through the panes

Keys move an offset without looking at the content, and showing the explorer moves it back. What is
shown is always a full page of the content, as far as there is one, and every row of a pane can be
brought into its window.
-/
namespace ScriptFrontend

/-! Offsets that are shown -/

theorem Region.visibleRows_pos (r : Region) : 0 < r.visibleRows :=
  Nat.lt_of_lt_of_le Nat.one_pos (Nat.le_max_left _ _)

theorem settledOffset_of_rows {p : Pane} {rows : Nat} (r : Region) (offset : Nat)
    (filled : rows = 0 → p = .source) :
    settledOffset p rows r offset = clampOffset rows r.visibleRows offset :=
  if_neg fun note => note.2 (filled note.1)

/-! The content of the panes -/

namespace Subject

/-- All rows of a pane, before any is cut off. -/
def content (s : Subject) : Pane → List StyledLine
  | .source =>
    (s.lines.zipIdx 1).map fun line => SourcePane.row (s.faultLines.has line.2) line.2 line.1
  | .tree => s.treeLines.map TreePane.styleLine
  | .diagnostics => DiagnosticsPane.allRows s.diagnostics

theorem length_content (s : Subject) (p : Pane) : (s.content p).length = s.rowCount p := by
  cases p with
  | source => rw [content, List.length_map, List.length_zipIdx, rowCount]
  | tree => rw [content, List.length_map, rowCount]
  | diagnostics => rfl

end Subject

theorem DiagnosticsPane.length_entry (d : Diagnostic) :
    (entry d).length = if d.sourceLine.isSome then 3 else 1 := by
  rw [entry]
  cases d.sourceLine <;> rfl

/-- The rows of a pane: one for each line of the text or of the printed tree, and one for each
diagnostic or three if it quotes its line. -/
def ParseOutcome.rowsIn (source : String) (o : ParseOutcome) : Pane → Nat
  | .source => (Text.lines source).length
  | .tree => (Text.lines (o.program.print 0)).length
  | .diagnostics => o.diagnostics.foldr (fun d n => (if d.sourceLine.isSome then 3 else 1) + n) 0

theorem DiagnosticsPane.length_allRows (ds : List Diagnostic) :
    (allRows ds).length =
      ds.foldr (fun d n => (if d.sourceLine.isSome then 3 else 1) + n) 0 := by
  induction ds with
  | nil => rfl
  | cons d ds ih =>
    rw [allRows, List.flatMap_cons, List.length_append, length_entry, ← allRows, ih, List.foldr_cons]

namespace Subject
variable {source : String} {o : ParseOutcome}

theorem rowCount_of (source : String) (o : ParseOutcome) (p : Pane) :
    (Subject.of source o).rowCount p = o.rowsIn source p := by
  cases p with
  | source => rfl
  | tree => rfl
  | diagnostics => exact DiagnosticsPane.length_allRows o.diagnostics

/-- The printed tree has a line at least for the program. -/
theorem treeLines_ne_nil (source : String) (o : ParseOutcome) : (Subject.of source o).treeLines ≠ [] := by
  have root : o.program.print 0 =
      Text.blanks 0 ++ "Program:" ++ "\n" ++ renderOutline (Stmt.outlineAll 1 o.program.statements) :=
    String.join_cons
  have lines : (Subject.of source o).treeLines = Text.lines (o.program.print 0) := rfl
  rw [lines, root, Text.lines_below]
  simp [Text.pieces_ne_nil]

theorem eq_source_of_rowsIn_eq_zero {p : Pane} (filled : p = .diagnostics → o.diagnostics ≠ [])
    (empty : o.rowsIn source p = 0) : p = .source := by
  cases p with
  | source => rfl
  | tree => exact absurd (List.eq_nil_of_length_eq_zero empty) (treeLines_ne_nil source o)
  | diagnostics =>
    cases found : o.diagnostics with
    | nil => exact absurd found (filled rfl)
    | cons d ds =>
      rw [ParseOutcome.rowsIn, found, List.foldr_cons] at empty
      split at empty <;> omega

end Subject

/-! What is handed to the panes -/

theorem window_eq_extract {α : Type} (height offset : Nat) (l : List α) :
    window height offset l = l.extract offset (offset + min height l.length) := by
  have fits : ((l.drop offset).take height).length ≤ l.length := by
    rw [List.length_take, List.length_drop]
    omega
  rw [window, List.extract_eq_take_drop, Nat.add_sub_cancel_left, Nat.min_comm, ← List.take_take,
    List.take_of_length_le fits]

theorem map_window {α β : Type} (f : α → β) (height offset : Nat) (l : List α) :
    (window height offset l).map f = window height offset (l.map f) := by
  rw [window, window, List.map_take, List.map_drop]

namespace Explorer

def paneRows (width height : Nat) (p : Pane) : Nat := ((FrameLayout.of width height).pane p).visibleRows

/-- The rows of the content from the offset on, as many as the pane has or the content. -/
def handed (width height : Nat) (e : Explorer) (p : Pane) : List StyledLine :=
  let content := e.subject.content p
  let offset := e.offsets.get p
  content.extract offset (offset + min (paneRows width height p) content.length)

/-- A frame whose panes are given their rows. Without diagnostics there is a note in their place. -/
def frameOf (width height : Nat) (e : Explorer) (rows : Pane → List StyledLine) : Canvas :=
  let layout := FrameLayout.of width height
  let ds := e.subject.diagnostics
  let border (p : Pane) : Style := Theme.border (e.focus = p)
  let note : List StyledLine := [[⟨"No syntax errors", .plain⟩]]
  let source := (Canvas.blank width height).framedParagraph (layout.pane .source) " Source "
    (border .source) .plain (rows .source)
  let lower :=
    if ds = [] then
      source.framedParagraph (layout.pane .diagnostics) (DiagnosticsPane.title ds) (border .diagnostics)
        Theme.success note
    else
      source.framedList (layout.pane .diagnostics) (DiagnosticsPane.title ds) (border .diagnostics)
        (rows .diagnostics)
  e.statusBar.draw layout.status
    (lower.framedList (layout.pane .tree) " AST " (border .tree) (rows .tree))

theorem handed_eq (width height : Nat) (e : Explorer) (p : Pane) :
    e.handed width height p =
      window (paneRows width height p) (e.offsets.get p) (e.subject.content p) :=
  (window_eq_extract _ _ _).symm

theorem frame_eq (width height : Nat) {e : Explorer} (tree : e.subject.treeLines ≠ []) :
    e.frame width height = e.frameOf width height (e.handed width height) := by
  have source : SourcePane.rows e.subject.faultLines.has (paneRows width height .source)
      e.offsets.source e.subject.lines = e.handed width height .source := by
    rw [handed_eq, SourcePane.rows, map_window]
    rfl
  have outline : TreePane.rows (paneRows width height .tree) e.offsets.tree e.subject.treeLines =
      e.handed width height .tree := by
    rw [handed_eq, TreePane.rows, map_window]
    rfl
  have diagnostics : DiagnosticsPane.rows (paneRows width height .diagnostics) e.offsets.diagnostics
      e.subject.diagnostics = e.handed width height .diagnostics := by
    rw [handed_eq, DiagnosticsPane.rows]
    rfl
  rw [frameOf, ← source, ← outline, ← diagnostics, frame, SourcePane.draw, DiagnosticsPane.draw,
    TreePane.draw]
  simp only [List.isEmpty_iff, tree, if_false]
  rfl

/-! Offsets through a run -/

section Offsets
variable {width height : Nat} {e : Explorer} {p : Pane} {k : Key}

/-- The offset that a pane is shown with. -/
def shownOffset (width height : Nat) (e : Explorer) (p : Pane) : Nat :=
  (e.settle width height).offsets.get p

theorem shownOffset_eq (filled : e.subject.rowCount p = 0 → p = .source) :
    e.shownOffset width height p =
      clampOffset (e.subject.rowCount p) (paneRows width height p) (e.offsets.get p) := by
  have settled : e.shownOffset width height p = settledOffset p (e.subject.rowCount p)
      ((FrameLayout.of width height).pane p) (e.offsets.get p) := by
    cases p <;> rfl
  rw [settled, settledOffset_of_rows _ _ filled, paneRows]

theorem shownOffset_le (filled : e.subject.rowCount p = 0 → p = .source) :
    e.shownOffset width height p ≤ e.subject.rowCount p - paneRows width height p := by
  rw [shownOffset_eq filled]
  exact clampOffset_le _ _ _

theorem length_handed (filled : e.subject.rowCount p = 0 → p = .source) :
    ((e.settle width height).handed width height p).length =
      min (paneRows width height p) (e.subject.rowCount p) := by
  have settled : (e.settle width height).offsets.get p =
      clampOffset (e.subject.rowCount p) (paneRows width height p) (e.offsets.get p) :=
    shownOffset_eq filled
  have content : (e.settle width height).subject.content p = e.subject.content p := rfl
  rw [handed_eq, settled, content, ← e.subject.length_content p, length_window_clampOffset]

/-- A key that scrolls moves the offset that is shown, as far as the content goes. -/
theorem shownOffset_step {f : Nat → Nat} (scrolls : ∀ e, k.apply e = e.scrollBy f)
    (filled : 0 < e.subject.rowCount e.focus) :
    (e.step width height (.press k)).shownOffset width height e.focus =
      min (f (e.shownOffset width height e.focus))
        (e.subject.rowCount e.focus - paneRows width height e.focus) := by
  have moved : (e.step width height (.press k)).offsets.get e.focus =
      f (e.shownOffset width height e.focus) := by
    rw [step, Event.apply, scrolls]
    obtain ⟨subject, focus, offsets, finished, message⟩ := e
    cases focus <;> rfl
  have some : (e.step width height (.press k)).subject.rowCount e.focus = 0 → e.focus = .source := by
    rw [step_subject]
    exact fun none => absurd none (Nat.ne_of_gt filled)
  rw [shownOffset_eq some, moved, step_subject, clampOffset]

/-! Reaching a row -/

/-- One key after the other brings the focused pane to any offset that it can be shown with. -/
theorem exists_keys_offset {target : Nat} (unfinished : e.finished = false)
    (filled : 0 < e.subject.rowCount e.focus)
    (bound : target ≤ e.subject.rowCount e.focus - paneRows width height e.focus) :
    ∃ keys : List Key, (e.after width height (keys.map .press)).finished = false ∧
      (e.after width height (keys.map .press)).shownOffset width height e.focus = target := by
  have le : e.shownOffset width height e.focus ≤
      e.subject.rowCount e.focus - paneRows width height e.focus :=
    shownOffset_le fun none => absurd none (Nat.ne_of_gt filled)
  generalize far : (e.shownOffset width height e.focus - target) +
    (target - e.shownOffset width height e.focus) = n
  induction n generalizing e with
  | zero => exact ⟨[], unfinished, by rw [List.map_nil, after_nil]; omega⟩
  | succ n ih =>
    -- one step up or down towards the target stays within the bound
    obtain ⟨k, f, scrolls, nearer⟩ : ∃ (k : Key) (f : Nat → Nat), (∀ e, k.apply e = e.scrollBy f) ∧
        f (e.shownOffset width height e.focus) ≤
          e.subject.rowCount e.focus - paneRows width height e.focus ∧
        (f (e.shownOffset width height e.focus) - target) +
          (target - f (e.shownOffset width height e.focus)) = n := by
      by_cases above : target < e.shownOffset width height e.focus
      · refine ⟨.up, (· - 1), fun _ => rfl, ?_⟩
        dsimp only
        omega
      · refine ⟨.down, (· + 1), fun _ => rfl, ?_⟩
        dsimp only
        omega
    have moved : (e.step width height (.press k)).shownOffset width height e.focus =
        f (e.shownOffset width height e.focus) :=
      (shownOffset_step scrolls filled).trans (Nat.min_eq_left nearer.1)
    have focus : (e.step width height (.press k)).focus = e.focus := by
      rw [step, Event.apply, scrolls]
      rfl
    have subject : (e.step width height (.press k)).subject = e.subject := step_subject
    have running : (e.step width height (.press k)).finished = false := by
      rw [step, Event.apply, scrolls]
      exact unfinished
    rw [← subject, ← focus] at filled bound
    obtain ⟨keys, still, reached⟩ := ih running filled bound
      (by rw [focus, moved, subject]; exact nearer.1) (by rw [focus, moved]; exact nearer.2)
    refine ⟨k :: keys, ?_, ?_⟩
    · rw [List.map_cons, after_cons unfinished]
      exact still
    · rw [List.map_cons, after_cons unfinished, ← focus]
      exact reached

/-- At most one key brings the focus to a pane. -/
theorem exists_keys_focus (unfinished : e.finished = false) (p : Pane) :
    ∃ keys : List Key, (e.after width height (keys.map .press)).finished = false ∧
      (e.after width height (keys.map .press)).focus = p := by
  have near : e.focus = p ∨ e.focus.next = p ∨ e.focus.previous = p := by
    cases e.focus <;> cases p <;> decide
  rcases near with here | next | previous
  · exact ⟨[], unfinished, here⟩
  · refine ⟨[.tab], ?_, ?_⟩ <;> rw [List.map_singleton, after_cons unfinished, after_nil]
    · exact step_finished unfinished
    · exact next
  · refine ⟨[.backTab], ?_, ?_⟩ <;> rw [List.map_singleton, after_cons unfinished, after_nil]
    · exact step_finished unfinished
    · exact previous

theorem exists_keys_row {i : Nat} (unfinished : e.finished = false) (row : i < e.subject.rowCount p) :
    ∃ keys : List Key, (e.after width height (keys.map .press)).finished = false ∧
      (e.after width height (keys.map .press)).shownOffset width height p ≤ i ∧
      i < (e.after width height (keys.map .press)).shownOffset width height p +
        min (paneRows width height p) (e.subject.rowCount p) := by
  -- first to the pane, then to the offset that puts the row first, or to the last page
  obtain ⟨turns, running, focus⟩ := exists_keys_focus unfinished p
  have subject : (e.after width height (turns.map .press)).subject = e.subject := after_subject
  have page : 0 < paneRows width height p := Region.visibleRows_pos _
  have filled : 0 < e.subject.rowCount p := Nat.zero_lt_of_lt row
  have bound : min i (e.subject.rowCount p - paneRows width height p) ≤
      e.subject.rowCount p - paneRows width height p := Nat.min_le_right _ _
  generalize moved : e.after width height (turns.map .press) = e' at running focus subject
  rw [← subject, ← focus] at filled bound
  obtain ⟨keys, still, reached⟩ := exists_keys_offset running filled bound
  rw [focus, subject] at reached
  refine ⟨turns ++ keys, ?_, ?_⟩ <;> rw [List.map_append, after_append, moved]
  · exact still
  · rw [reached]
    omega

end Offsets

/-! Every run -/

/-- A text that lexes, browsed with any events on a screen of any size. While no key has quit, the
explorer is shown with full pages of the content, the focus is where the keys have moved it, a key
changes the focus or scrolls the pane in focus, and more keys bring every row of every pane into its
window. Behind a key that quits nothing changes. -/
theorem shows_every_row {source : String} {tokens : List Token} (lexed : tokenize source = .ok tokens) :
    ∃ o, parse source = .ok o ∧ ∀ (width height : Nat) (events : List Event),
      let total := o.rowsIn source
      let e := (start source o).after width height events
      let shown := e.settle width height
      (e.finished = false →
        shown.subject = .of source o ∧
        (∀ p, (p = .diagnostics → o.diagnostics ≠ []) →
          shown.offsets.get p ≤ total p - paneRows width height p ∧
          (shown.handed width height p).length = min (paneRows width height p) (total p)) ∧
        shown.frame width height = shown.frameOf width height (shown.handed width height) ∧
        (shown.focus.index : Int) = ((start source o).focus.index + turns events) % 3 ∧
        (∀ k : Key, k.quits = false →
          shown.Refocused (e.step width height (.press k)) ∨
          shown.Scrolled (e.step width height (.press k))) ∧
        ∀ p i, i < total p → ∃ keys : List Key,
          let next := e.after width height (keys.map .press)
          next.finished = false ∧ next.shownOffset width height p ≤ i ∧
            i < next.shownOffset width height p + min (paneRows width height p) (total p)) ∧
      ∀ k : Key, k.quits = true → ∀ more : List Event,
        (start source o).after width height (events ++ .press k :: more) =
          (start source o).after width height (events ++ [.press k]) := by
  refine ⟨_, parse_of_tokenize lexed, fun width height events => ?_⟩
  generalize parseTokens tokens (some source) = o
  intro total e shown
  have subject : e.subject = .of source o := after_subject
  have rows (p : Pane) : e.subject.rowCount p = total p := by
    rw [subject, Subject.rowCount_of]
  refine ⟨fun unfinished => ⟨subject, fun p present => ?_, ?_, ?_, ?_, fun p i row => ?_⟩,
    fun k quits more => after_quits quits⟩
  · have filled : e.subject.rowCount p = 0 → p = .source := by
      rw [rows]
      exact Subject.eq_source_of_rowsIn_eq_zero present
    rw [← rows]
    exact ⟨shownOffset_le filled, length_handed filled⟩
  · apply frame_eq
    have tree : shown.subject.treeLines = (Subject.of source o).treeLines := congrArg _ subject
    rw [tree]
    exact Subject.treeLines_ne_nil source o
  · exact after_focus unfinished
  · exact fun k plain => apply_of_not_quits shown plain
  · rw [← rows] at row ⊢
    exact exists_keys_row unfinished row

/-- More lines than four rows can show. -/
def nineLines : String := "a;\nb;\n\n\n\n\n\nc;\nd;"

/-- Behind a page too far, the first line comes back into a window of four rows. -/
theorem shows_every_row_nineLines :
    ∃ tokens o, tokenize nineLines = .ok tokens ∧
      parse nineLines = .ok o ∧
      paneRows 40 9 .source = 4 ∧ o.rowsIn nineLines .source = 9 ∧
      let paged := (start nineLines o).after 40 9 [.press .pageDown]
      paged.shownOffset 40 9 .source ≤ 5 ∧
      ∃ keys : List Key, (paged.after 40 9 (keys.map .press)).shownOffset 40 9 .source = 0 := by
  have scanned : (tokenize nineLines).toOption.isSome = true := by decide +kernel
  have lines : (Text.lines nineLines).length = 9 := by decide +kernel
  have rows : paneRows 40 9 .source = 4 := by decide
  cases accepted : tokenize nineLines with
  | error e =>
    rw [accepted] at scanned
    cases scanned
  | ok tokens =>
    obtain ⟨o, parsed, runs⟩ := shows_every_row accepted
    have total : o.rowsIn nineLines .source = 9 := lines
    obtain ⟨-, bounds, -, -, -, reach⟩ := (runs 40 9 [.press .pageDown]).1 rfl
    have bound := (bounds .source nofun).1
    rw [total, rows] at bound
    obtain ⟨keys, -, low, -⟩ := reach .source 0 (by rw [total]; decide)
    exact ⟨tokens, o, rfl, parsed, rows, total, bound, keys, Nat.le_zero.mp low⟩

end Explorer
end ScriptFrontend
