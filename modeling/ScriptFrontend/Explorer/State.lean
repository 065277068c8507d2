import ScriptFrontend.Explorer.DiagnosticsPane
import ScriptFrontend.Explorer.SourcePane
import ScriptFrontend.Explorer.StatusBar
import ScriptFrontend.Explorer.TreePane
import ScriptFrontend.Parse.Outcome
import ScriptFrontend.Tree.Census

/-!
The explorer: a parsed text in three panes, one of which has the keys. Keys may move an offset past
the end of a pane's content; showing the explorer on a screen settles the offsets.
-/
namespace ScriptFrontend

inductive Pane where
  | source | tree | diagnostics
deriving DecidableEq

namespace Pane

def next : Pane → Pane
  | source => tree
  | tree => diagnostics
  | diagnostics => source

def previous : Pane → Pane
  | source => diagnostics
  | tree => source
  | diagnostics => tree

def name : Pane → String
  | source => "source"
  | tree => "AST"
  | diagnostics => "diagnostics"

end Pane

structure Subject where
  lines : List String
  treeLines : List String
  diagnostics : List Diagnostic
  statements : Nat
  nodes : Nat

namespace Subject

def of (source : String) (o : ParseOutcome) : Subject where
  lines := Text.lines source
  treeLines := Text.lines (o.program.print 0)
  diagnostics := o.diagnostics
  statements := o.program.statements.length
  nodes := (Census.ofProgram o.program).total

def faultLines (s : Subject) : Tally Nat :=
  Tally.empty.bumpAll id (s.diagnostics.map (·.location.line))

def rowCount (s : Subject) : Pane → Nat
  | .source => s.lines.length
  | .tree => s.treeLines.length
  | .diagnostics => (DiagnosticsPane.allRows s.diagnostics).length

end Subject

structure Offsets where
  source : Nat
  tree : Nat
  diagnostics : Nat
deriving DecidableEq

namespace Offsets

def get (o : Offsets) : Pane → Nat
  | .source => o.source
  | .tree => o.tree
  | .diagnostics => o.diagnostics

def update (o : Offsets) (f : Nat → Nat) : Pane → Offsets
  | .source => { o with source := f o.source }
  | .tree => { o with tree := f o.tree }
  | .diagnostics => { o with diagnostics := f o.diagnostics }

end Offsets

structure Explorer where
  subject : Subject
  focus : Pane
  offsets : Offsets
  finished : Bool
  message : String

inductive Key where
  | tab | backTab | up | down | pageUp | pageDown | escape
  | character (c : Char)
  | other

/-- What a terminal reports. Only presses have an effect. -/
inductive Event where
  | press (k : Key)
  | release (k : Key)
  | focusGained

namespace Explorer

def pageRows : Nat := 10

def start (source : String) (o : ParseOutcome) : Explorer where
  subject := .of source o
  focus := .source
  offsets := ⟨0, 0, 0⟩
  finished := false
  message :=
    if o.diagnostics.isEmpty then "Parsing successful"
    else s!"Parsing completed with {o.diagnostics.length} error(s)"

def focusOn (e : Explorer) (p : Pane) : Explorer :=
  { e with focus := p, message := s!"Focused {p.name} pane" }

def scrollBy (e : Explorer) (f : Nat → Nat) : Explorer :=
  { e with offsets := e.offsets.update f e.focus }

end Explorer

/-- Offsets stop at zero; that they do not run past the end is settled when the explorer is shown. -/
def Key.apply (e : Explorer) : Key → Explorer
  | tab => e.focusOn e.focus.next
  | backTab => e.focusOn e.focus.previous
  | up => e.scrollBy (· - 1)
  | down => e.scrollBy (· + 1)
  | pageUp => e.scrollBy (· - Explorer.pageRows)
  | pageDown => e.scrollBy (· + Explorer.pageRows)
  | escape => { e with finished := true }
  | character c => if c = 'q' || c = 'Q' then { e with finished := true } else e
  | other => e

def Event.apply (e : Explorer) : Event → Explorer
  | press k => k.apply e
  | release _ | focusGained => e

end ScriptFrontend
