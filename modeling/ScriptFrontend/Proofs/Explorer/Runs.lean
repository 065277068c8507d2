import ScriptFrontend.Explorer.Frame

/-!
# Runs of the explorer

What one event does to an explorer that is shown, and from it what a whole run keeps: the subject
stays, the focus goes round with the keys that move it, and nothing happens behind a key that quits.
-/
namespace ScriptFrontend

def Key.quits : Key → Bool
  | escape => true
  | character c => c = 'q' || c = 'Q'
  | _ => false

def Event.quits : Event → Bool
  | press k => k.quits
  | release _ | focusGained => false

namespace Explorer
variable {width height : Nat} {e shown : Explorer} {event : Event} {events more : List Event}

/-! One event -/

/-- At most the focus and the message change. -/
def Refocused (e e' : Explorer) : Prop :=
  e' = { e with focus := e'.focus, message := e'.message }

/-- At most the offset of the pane that has the keys changes. -/
def Scrolled (e e' : Explorer) : Prop :=
  e' = { e with offsets := e'.offsets } ∧ ∀ p ≠ e.focus, e'.offsets.get p = e.offsets.get p


theorem refocused_focusOn (e : Explorer) (p : Pane) : e.Refocused (e.focusOn p) := rfl

theorem refocused_self (e : Explorer) : e.Refocused e := rfl

theorem scrolled_scrollBy (e : Explorer) (f : Nat → Nat) : e.Scrolled (e.scrollBy f) := by
  refine ⟨rfl, fun p other => ?_⟩
  obtain ⟨subject, focus, offsets, finished, message⟩ := e
  cases focus <;> cases p <;> first | rfl | exact absurd rfl other

theorem apply_of_quits (e : Explorer) (h : event.quits = true) :
    event.apply e = { e with finished := true } := by
  cases event with
  | press k =>
    cases k with
    | escape => rfl
    | character c => exact if_pos h
    | _ => cases h
  | release k => cases h
  | focusGained => cases h

theorem apply_of_not_quits (e : Explorer) (h : event.quits = false) :
    e.Refocused (event.apply e) ∨ e.Scrolled (event.apply e) := by
  cases event with
  | press k =>
    cases k with
    | tab => exact .inl (e.refocused_focusOn _)
    | backTab => exact .inl (e.refocused_focusOn _)
    | up => exact .inr (e.scrolled_scrollBy _)
    | down => exact .inr (e.scrolled_scrollBy _)
    | pageUp => exact .inr (e.scrolled_scrollBy _)
    | pageDown => exact .inr (e.scrolled_scrollBy _)
    | escape => cases h
    | character c =>
      have same : Event.apply e (.press (.character c)) = e := if_neg (ne_true_of_eq_false h)
      rw [same]
      exact .inl e.refocused_self
    | other => exact .inl e.refocused_self
  | release k => exact .inl e.refocused_self
  | focusGained => exact .inl e.refocused_self

theorem apply_finished (e : Explorer) : (event.apply e).finished = (event.quits || e.finished) := by
  cases quits : event.quits with
  | true => rw [apply_of_quits e quits, Bool.true_or]
  | false =>
    rw [Bool.false_or]
    rcases apply_of_not_quits e quits with only | only
    · rw [only]
    · rw [only.1]

theorem apply_subject (e : Explorer) : (event.apply e).subject = e.subject := by
  cases quits : event.quits with
  | true => rw [apply_of_quits e quits]
  | false =>
    rcases apply_of_not_quits e quits with only | only
    · rw [only]
    · rw [only.1]

theorem step_finished (unfinished : e.finished = false) :
    (e.step width height event).finished = event.quits := by
  rw [step, apply_finished, settle, unfinished, Bool.or_false]

theorem step_subject : (e.step width height event).subject = e.subject := by
  rw [step, apply_subject]
  rfl

/-! Whole runs -/

/-- The state that a run leads to: nothing is handled behind the event that finishes it. -/
def after (width height : Nat) (e : Explorer) (events : List Event) : Explorer :=
  ((e.run width height events).getLast?).getD e

theorem after_nil : e.after width height [] = e := rfl

theorem after_finished (finished : e.finished = true) : e.after width height events = e := by
  cases events with
  | nil => rfl
  | cons event events => rw [after, run, if_pos finished, List.getLast?_nil, Option.getD_none]

theorem after_cons (unfinished : e.finished = false) :
    e.after width height (event :: events) = (e.step width height event).after width height events := by
  rw [after, run, if_neg (ne_true_of_eq_false unfinished), List.getLast?_cons, Option.getD_some]
  rfl

theorem after_append :
    e.after width height (events ++ more) = (e.after width height events).after width height more := by
  induction events generalizing e with
  | nil => rfl
  | cons event events ih =>
    cases finished : e.finished with
    | true => rw [after_finished finished, after_finished finished, after_finished finished]
    | false => rw [List.cons_append, after_cons finished, after_cons finished, ih]

theorem after_subject : (e.after width height events).subject = e.subject := by
  induction events generalizing e with
  | nil => rfl
  | cons event events ih =>
    cases finished : e.finished with
    | true => rw [after_finished finished]
    | false => rw [after_cons finished, ih, step_subject]

theorem after_quits (quits : event.quits = true) :
    e.after width height (events ++ event :: more) = e.after width height (events ++ [event]) := by
  rw [after_append, after_append]
  cases finished : (e.after width height events).finished with
  | true => rw [after_finished finished, after_finished finished]
  | false =>
    rw [after_cons finished, after_cons finished, after_nil,
      after_finished ((step_finished finished).trans quits)]

end Explorer

/-! The focus -/

/-- The place of a pane in the round that the focus makes. -/
def Pane.index : Pane → Nat
  | source => 0
  | tree => 1
  | diagnostics => 2

theorem Pane.index_next (p : Pane) : (p.next.index : Int) = (p.index + 1) % 3 := by
  cases p <;> rfl

theorem Pane.index_previous (p : Pane) : (p.previous.index : Int) = (p.index - 1) % 3 := by
  cases p <;> rfl

theorem Pane.index_lt (p : Pane) : p.index < 3 := by
  cases p <;> decide

namespace Event

def isTab : Event → Bool
  | press .tab => true
  | _ => false

def isBackTab : Event → Bool
  | press .backTab => true
  | _ => false

end Event

namespace Explorer
variable {width height : Nat} {e : Explorer} {event : Event} {events : List Event}

/-- How far the focus goes in a run: once for each key that moves it on, and back for the other. -/
def turns (events : List Event) : Int := events.countP Event.isTab - events.countP Event.isBackTab

theorem turns_cons (event : Event) (events : List Event) :
    turns (event :: events) = turns [event] + turns events := by
  simp only [turns, List.countP_cons, List.countP_nil]
  omega

theorem apply_focus (e : Explorer) :
    ((event.apply e).focus.index : Int) = (e.focus.index + turns [event]) % 3 := by
  have same : (e.focus.index : Int) = (e.focus.index + 0) % 3 := by
    have := e.focus.index_lt
    omega
  cases event with
  | press k =>
    cases k with
    | tab => exact e.focus.index_next
    | backTab => exact e.focus.index_previous
    | character c =>
      have kept : (Event.apply e (.press (.character c))).focus = e.focus := by
        rw [Event.apply, Key.apply]
        split <;> rfl
      rw [kept]
      exact same
    | _ => exact same
  | release k => exact same
  | focusGained => exact same

theorem after_focus (unfinished : (e.after width height events).finished = false) :
    ((e.after width height events).focus.index : Int) = (e.focus.index + turns events) % 3 := by
  induction events generalizing e with
  | nil =>
    have := e.focus.index_lt
    change (e.focus.index : Int) = (e.focus.index + 0) % 3
    omega
  | cons event events ih =>
    cases finished : e.finished with
    | true =>
      rw [after_finished finished] at unfinished
      exact absurd finished (ne_true_of_eq_false unfinished)
    | false =>
      rw [after_cons finished] at unfinished ⊢
      have moved : ((e.step width height event).focus.index : Int) =
          (e.focus.index + turns [event]) % 3 := apply_focus (e.settle width height)
      rw [ih unfinished, moved, turns_cons event events]
      omega

end Explorer
end ScriptFrontend
