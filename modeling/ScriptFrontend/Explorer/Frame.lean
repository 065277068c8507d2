import ScriptFrontend.Explorer.State

/-!
Whole frames of the explorer: the text at the upper left, its diagnostics below, the tree at the
right, the status bar in the last row. A run shows a frame before each event.
-/
namespace ScriptFrontend

structure FrameLayout where
  pane : Pane → Region
  status : Region

def FrameLayout.of (width height : Nat) : FrameLayout :=
  let (main, status) := Region.splitLastRow ⟨0, 0, width, height⟩
  let (left, right) := main.splitColumns 55
  let (upper, lower) := left.splitRows 70
  ⟨fun | .source => upper | .diagnostics => lower | .tree => right, status⟩

/-- The offset that a pane of a given number of rows is shown with. A pane that has a note in place of
rows is not scrolled and keeps its offset. -/
def settledOffset (p : Pane) (rows : Nat) (r : Region) (offset : Nat) : Nat :=
  if rows = 0 ∧ p ≠ .source then offset else clampOffset rows r.visibleRows offset

namespace Explorer

def settle (width height : Nat) (e : Explorer) : Explorer :=
  let fit (p : Pane) : Nat :=
    settledOffset p (e.subject.rowCount p) ((FrameLayout.of width height).pane p) (e.offsets.get p)
  { e with offsets := ⟨fit .source, fit .tree, fit .diagnostics⟩ }

def statusBar (e : Explorer) : StatusBar :=
  ⟨e.message, e.subject.statements, e.subject.nodes, e.subject.diagnostics.length⟩

def frame (width height : Nat) (e : Explorer) : Canvas :=
  let layout := FrameLayout.of width height
  let faults := e.subject.faultLines
  Canvas.blank width height
  |> SourcePane.draw (layout.pane .source) e.subject.lines faults.has (e.focus = .source) e.offsets.source
  |> DiagnosticsPane.draw (layout.pane .diagnostics) e.subject.diagnostics (e.focus = .diagnostics)
    e.offsets.diagnostics
  |> TreePane.draw (layout.pane .tree) e.subject.treeLines (e.focus = .tree) e.offsets.tree
  |> e.statusBar.draw layout.status

def step (width height : Nat) (e : Explorer) (event : Event) : Explorer :=
  event.apply (e.settle width height)

/-- The states behind the events of a run. Nothing is handled after the one that finishes it. -/
def run (width height : Nat) (e : Explorer) : List Event → List Explorer
  | [] => []
  | event :: events =>
    if e.finished then []
    else e.step width height event :: (e.step width height event).run width height events

/-- The state at the end of a run; an unfinished one is shown once more. -/
def runToEnd (width height : Nat) (e : Explorer) (events : List Event) : Explorer :=
  let last := ((e.run width height events).getLast?).getD e
  if last.finished then last else last.settle width height

end Explorer
end ScriptFrontend
