import ScriptFrontend.Proofs.Explorer.Highlighting
import ScriptFrontend.Proofs.Explorer.Scrolling
import ScriptFrontend.Proofs.Tally

/-!
# The rows of the source pane

A row of the pane is its number, with a mark in front if the line has a fault, and the line itself,
cut into spans. The faults of a text are counted by line, so a row that is shown has a mark exactly if
some diagnostic stands on its line.
-/
namespace ScriptFrontend

/-- What a span shows apart from its background. -/
def Span.face (s : Span) : String × Option Color × Bool :=
  (s.text, s.style.foreground, s.style.bold)

theorem getElem?_of_window {α : Type} {height offset i : Nat} {l : List α} {x : α}
    (found : (window height offset l)[i]? = some x) : l[offset + i]? = some x := by
  rw [window, List.getElem?_take] at found
  split at found
  · rwa [List.getElem?_drop] at found
  · cases found

/-! One row -/

namespace SourcePane
variable {faulty : Nat → Bool} {lines : List String} {row : StyledLine}

theorem row_eq (fault : Bool) (number : Nat) (line : String) :
    ∃ spans, SourcePane.row fault number line = gutter fault number :: spans ∧
      spans.map Span.face = (Highlight.line line).map Span.face ∧
      (fault = false → spans = Highlight.line line) ∧
      (fault = true → ∀ s ∈ spans, s.style.background = some Theme.faultBackground) := by
  cases fault with
  | false => exact ⟨_, rfl, rfl, fun _ => rfl, nofun⟩
  | true =>
    refine ⟨(Highlight.line line).map tint, rfl, ?_, nofun, fun _ s member => ?_⟩
    · rw [List.map_map]
      rfl
    · obtain ⟨plain, -, rfl⟩ := List.mem_map.1 member
      rfl

/-- Spans with the same faces make the same text. -/
theorem text_of_face {a b : StyledLine} (same : a.map Span.face = b.map Span.face) :
    StyledLine.text a = StyledLine.text b := by
  have texts := congrArg (List.map Prod.fst) same
  rw [List.map_map, List.map_map] at texts
  exact congrArg String.join texts

/-- The mark is the first character of a row. -/
theorem head?_row (fault : Bool) (number : Nat) (line : String) :
    (StyledLine.text (SourcePane.row fault number line)).toList.head? =
      some (if fault then '!' else ' ') := by
  rw [StyledLine.toList_text]
  cases fault <;> simp [SourcePane.row, gutter, String.toList_append]

theorem length_rows (faulty : Nat → Bool) (height offset : Nat) (lines : List String) :
    (rows faulty height (clampOffset lines.length height offset) lines).length =
      min height lines.length := by
  have count : (lines.zipIdx 1).length = lines.length := List.length_zipIdx
  rw [rows, List.length_map, ← count, length_window_clampOffset]

theorem exists_of_getElem?_rows {height offset i : Nat}
    (shown : (rows faulty height offset lines)[i]? = some row) :
    ∃ line, lines[offset + i]? = some line ∧
      row = SourcePane.row (faulty (offset + i + 1)) (offset + i + 1) line := by
  rw [rows, List.getElem?_map, Option.map_eq_some_iff] at shown
  obtain ⟨entry, within, rfl⟩ := shown
  have found := getElem?_of_window within
  rw [List.getElem?_zipIdx, Option.map_eq_some_iff] at found
  obtain ⟨line, here, rfl⟩ := found
  exact ⟨line, here, by rw [Nat.add_comm 1]⟩

end SourcePane

/-! Faults by line -/

namespace Subject

/-- Lines that are counted, each once and in order, with their numbers of diagnostics. -/
theorem faultLines_counts (s : Subject) :
    let found (n : Nat) := s.diagnostics.countP fun d => d.location.line = n
    (∀ n, s.faultLines.entries.lookup n = if found n = 0 then none else some (found n)) ∧
      (s.faultLines.entries.map Prod.fst).Pairwise (· < ·) ∧
      (∀ entry ∈ s.faultLines.entries, 0 < entry.2) ∧
      s.faultLines.total = s.diagnostics.length := by
  intro found
  have injective : Function.Injective (id : Nat → Nat) := fun _ _ same => same
  have count (n : Nat) : (s.diagnostics.map (·.location.line)).count n = found n := by
    rw [List.count_eq_countP, List.countP_map]
    rfl
  refine ⟨fun n => ?_, ?_, fun entry member => ?_, ?_⟩
  · rw [faultLines, Tally.lookup_bumpAll injective, count]
    by_cases present : n ∈ s.diagnostics.map (·.location.line)
    · have some : found n ≠ 0 := by
        rw [← count]
        exact Nat.ne_of_gt (List.count_pos_iff.2 present)
      rw [if_pos present, if_neg some]
    · have none : found n = 0 := by rw [← count, List.count_eq_zero_of_not_mem present]
      rw [if_neg present, if_pos none]
  · exact Tally.ordered_bumpAll injective _
  · obtain ⟨counted, -⟩ := (Tally.mem_bumpAll_iff injective _ entry.1 entry.2).1 member
    exact Nat.pos_of_ne_zero counted
  · rw [faultLines, Tally.total_bumpAll, List.length_map]
    exact Nat.zero_add _

theorem has_faultLines (s : Subject) (n : Nat) :
    s.faultLines.has n = true ↔ ∃ d ∈ s.diagnostics, d.location.line = n := by
  have injective : Function.Injective (id : Nat → Nat) := fun _ _ same => same
  rw [faultLines, Tally.has_bumpAll injective, List.mem_map]

end Subject

/-! The rows that are shown -/

namespace SourcePane

theorem marked_iff {width height i : Nat} {e : Explorer} {row : StyledLine}
    (shown : (e.handed width height .source)[i]? = some row) :
    (StyledLine.text row).toList.head? = some '!' ↔
      ∃ d ∈ e.subject.diagnostics, d.location.line = e.offsets.source + i + 1 := by
  have source : e.handed width height .source =
      rows e.subject.faultLines.has (Explorer.paneRows width height .source) e.offsets.source
        e.subject.lines := by
    rw [Explorer.handed_eq, rows, map_window]
    rfl
  rw [source] at shown
  obtain ⟨line, -, rfl⟩ := exists_of_getElem?_rows shown
  rw [head?_row, ← Subject.has_faultLines]
  cases e.subject.faultLines.has (e.offsets.source + i + 1) <;> decide

/-- Whatever the text, the lines with faults, the region and the offset: the pane shows its lines from
the offset on, each behind its mark and its number, and the spans of a row make up its line. The
background of a line with faults is all that its spans differ in. In the explorer of a text that lexes
every line is counted with its diagnostics, and the rows with a mark are those of their lines. -/
theorem rows_show_lines :
    (∀ (text : String) (faulty : Nat → Bool) (r : Region) (offset : Nat),
      let lines := Text.lines text
      let first := clampOffset lines.length r.visibleRows offset
      let shown := rows faulty r.visibleRows first lines
      shown.length = min r.visibleRows lines.length ∧
      ∀ i row, shown[i]? = some row → ∃ line mark spans,
        let number := first + i + 1
        lines[first + i]? = some line ∧ row = mark :: spans ∧
        mark.text = (if faulty number then "!" else " ") ++ Text.alignRight 4 (toString number) ++ " " ∧
        StyledLine.text spans = line ∧
        spans.map Span.face = (Highlight.line line).map Span.face ∧
        (faulty number = false → spans = Highlight.line line) ∧
        (faulty number = true → ∀ s ∈ spans, s.style.background = some Theme.faultBackground)) ∧
    ∀ (source : String) (tokens : List Token), tokenize source = .ok tokens →
      ∃ o, parse source = .ok o ∧
        let faults := (Explorer.start source o).subject.faultLines
        let found (n : Nat) := o.diagnostics.countP fun d => d.location.line = n
        (∀ n, faults.entries.lookup n = if found n = 0 then none else some (found n)) ∧
        (faults.entries.map Prod.fst).Pairwise (· < ·) ∧
        (∀ entry ∈ faults.entries, 0 < entry.2) ∧
        faults.total = o.diagnostics.length ∧
        ∀ (width height : Nat) (events : List Event),
          let shown := ((Explorer.start source o).after width height events).settle width height
          ∀ i row, (shown.handed width height .source)[i]? = some row →
            ((StyledLine.text row).toList.head? = some '!' ↔
              ∃ d ∈ o.diagnostics, d.location.line = shown.offsets.source + i + 1) := by
  refine ⟨fun text faulty r offset => ?_, fun source tokens lexed => ?_⟩
  · intro lines first shown
    refine ⟨length_rows faulty r.visibleRows offset lines, fun i row within => ?_⟩
    obtain ⟨line, here, rfl⟩ := exists_of_getElem?_rows within
    obtain ⟨spans, cut, faces, plain, tinted⟩ :=
      row_eq (faulty (first + i + 1)) (first + i + 1) line
    have whole : StyledLine.text spans = line :=
      (text_of_face faces).trans (Highlight.text_line line)
    exact ⟨line, _, spans, here, cut, rfl, whole, faces, plain, tinted⟩
  · refine ⟨_, parse_of_tokenize lexed, ?_⟩
    generalize parseTokens tokens (some source) = o
    intro faults found
    obtain ⟨counts, ordered, positive, total⟩ :=
      Subject.faultLines_counts (Explorer.start source o).subject
    refine ⟨counts, ordered, positive, total, fun width height events => ?_⟩
    intro shown i row within
    have subject : shown.subject = .of source o := Explorer.after_subject
    have same : shown.subject.diagnostics = o.diagnostics := congrArg Subject.diagnostics subject
    rw [marked_iff within, same]

end SourcePane
end ScriptFrontend
