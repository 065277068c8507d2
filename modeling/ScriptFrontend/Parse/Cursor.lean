import ScriptFrontend.Parse.Fault

/-!
The state of reading: the lexemes not yet read, the faults noted so far, and whether the reader
panics. A fault throws the reader into panic and makes it skip to a boundary between statements;
until the panic is over further faults are taken for consequences of the first and not noted.

A reading step has what it read and the cursor behind it. What is left is always a suffix of what
there was, and the faults noted on the way lie in between, in the order of the text.
-/
namespace ScriptFrontend.Parse

/-- Lexemes that end a statement or start one. -/
def isBoundary : Lexeme → Bool
  | .symbol s => s ∈ [.semicolon, .closeBrace, .kwIf, .kwWhile, .kwDef, .kwReturn, .kwVar]
  | _ => false

/-- What is left after skipping to a boundary. A semicolon there is skipped too. -/
def resynchronize : List Lexeme → List Lexeme
  | [] => []
  | .symbol .semicolon :: rest => rest
  | l :: rest => if isBoundary l then l :: rest else resynchronize rest

theorem resynchronize_suffix (ls : List Lexeme) : resynchronize ls <:+ ls := by
  fun_induction resynchronize ls with
  | case1 => exact List.suffix_rfl
  | case2 rest => exact List.suffix_cons _ _
  | case3 => exact List.suffix_rfl
  | case4 l rest _ _ ih => exact ih.trans (List.suffix_cons _ _)

/-- The faults were noted, in this order, on the way from one place of the input to a later one. -/
def Trail (above : List Lexeme) : List Fault → List Lexeme → Prop
  | [], below => below <:+ above
  | f :: fs, below => f.rest <:+ above ∧ Trail f.rest fs below

namespace Trail
variable {a b c : List Lexeme} {fs gs : List Fault}

theorem suffix (h : Trail a fs b) : b <:+ a := by
  induction fs generalizing a with
  | nil => exact h
  | cons f fs ih => exact (ih h.2).trans h.1

theorem above (h : b <:+ a) (t : Trail b fs c) : Trail a fs c := by
  cases fs with
  | nil => exact List.IsSuffix.trans t h
  | cons f fs => exact ⟨t.1.trans h, t.2⟩

theorem append (h : Trail a fs b) (t : Trail b gs c) : Trail a (fs ++ gs) c := by
  induction fs generalizing a with
  | nil => exact t.above h
  | cons f fs ih => exact ⟨h.1, ih h.2⟩

theorem below (h : Trail a fs b) (t : c <:+ b) : Trail a fs c := by
  have still : Trail b [] c := t
  simpa using h.append still

theorem rest_suffix (h : Trail a fs b) : ∀ f ∈ fs, f.rest <:+ a := by
  induction fs generalizing a with
  | nil => simp
  | cons f fs ih =>
    intro g hg
    rcases List.mem_cons.1 hg with rfl | hg
    · exact h.1
    · exact (ih h.2 g hg).trans h.1

end Trail

structure Cursor where
  pending : List Lexeme
  panicking : Bool
  faults : List Fault
  noted : panicking = true → faults ≠ []

namespace Cursor

/-- The start of a statement: calm, and without faults of its own. -/
def start (pending : List Lexeme) : Cursor := ⟨pending, false, [], nofun⟩

def moveTo (s : Cursor) (pending : List Lexeme) : Cursor := { s with pending }

def calm (s : Cursor) : Cursor := { s with panicking := false, noted := nofun }

def sees (s : Cursor) (symbol : Symbol) : Bool :=
  match s.pending with
  | .symbol b :: _ => b = symbol
  | _ => false

/-- Notes a fault, unless in panic, and skips to a boundary. -/
def report (s : Cursor) (cause : FaultCause) : Cursor :=
  ⟨resynchronize s.pending, true,
    if s.panicking then s.faults else s.faults ++ [⟨cause, s.pending⟩], by
      intro _
      split
      · exact s.noted ‹_›
      · simp⟩

/-- One cursor lies behind another, with the faults noted on the way added to those before. -/
def Leads (s t : Cursor) : Prop :=
  ∃ later, t.faults = s.faults ++ later ∧ Trail s.pending later t.pending

@[simp] theorem moveTo_pending (s : Cursor) (ls : List Lexeme) : (s.moveTo ls).pending = ls := rfl

@[simp] theorem moveTo_faults (s : Cursor) (ls : List Lexeme) : (s.moveTo ls).faults = s.faults := rfl

@[simp] theorem start_moveTo (ks ls : List Lexeme) : (start ks).moveTo ls = start ls := rfl

@[simp] theorem calm_pending (s : Cursor) : s.calm.pending = s.pending := rfl

@[simp] theorem calm_faults (s : Cursor) : s.calm.faults = s.faults := rfl

@[simp] theorem start_pending (ls : List Lexeme) : (start ls).pending = ls := rfl

@[simp] theorem start_faults (ls : List Lexeme) : (start ls).faults = [] := rfl

@[simp] theorem start_calm (ls : List Lexeme) : (start ls).calm = start ls := rfl

theorem length_of_cons {s : Cursor} {l : Lexeme} {rest : List Lexeme} (h : s.pending = l :: rest) :
    s.pending.length = rest.length + 1 :=
  congrArg List.length h

theorem length_of_cons₂ {s : Cursor} {l m : Lexeme} {rest : List Lexeme}
    (h : s.pending = l :: m :: rest) : s.pending.length = rest.length + 2 :=
  congrArg List.length h

namespace Leads
variable {s t u : Cursor}

theorem refl (s : Cursor) : s.Leads s := ⟨[], by simp, List.suffix_rfl⟩

theorem trans (h : s.Leads t) (k : t.Leads u) : s.Leads u := by
  obtain ⟨fs, hf, ht⟩ := h
  obtain ⟨gs, hg, hu⟩ := k
  exact ⟨fs ++ gs, by rw [hg, hf, List.append_assoc], ht.append hu⟩

theorem suffix (h : s.Leads t) : t.pending <:+ s.pending :=
  h.choose_spec.2.suffix

theorem length_le (h : s.Leads t) : t.pending.length ≤ s.pending.length :=
  h.suffix.length_le

theorem calm (h : s.Leads t) : s.Leads t.calm := h

end Leads

theorem leads_moveTo {s : Cursor} {ls : List Lexeme} (h : ls <:+ s.pending) : s.Leads (s.moveTo ls) :=
  ⟨[], by simp, h⟩

theorem leads_of_cons {s : Cursor} {l : Lexeme} {rest : List Lexeme} (h : s.pending = l :: rest) :
    s.Leads (s.moveTo rest) :=
  leads_moveTo (h ▸ List.suffix_cons l rest)

theorem leads_of_cons₂ {s : Cursor} {l m : Lexeme} {rest : List Lexeme}
    (h : s.pending = l :: m :: rest) : s.Leads (s.moveTo rest) :=
  leads_moveTo (h ▸ (List.suffix_cons m rest).trans (List.suffix_cons l (m :: rest)))

theorem leads_report (s : Cursor) (cause : FaultCause) : s.Leads (s.report cause) := by
  have down := resynchronize_suffix s.pending
  by_cases h : s.panicking
  · exact ⟨[], by simp [report, h], down⟩
  · exact ⟨[⟨cause, s.pending⟩], by simp [report, h], List.suffix_rfl, down⟩

theorem leads_report_moveTo (s : Cursor) (cause : FaultCause) {ls : List Lexeme}
    (h : ls <:+ s.pending) : s.Leads ((s.report cause).moveTo ls) := by
  by_cases hp : s.panicking
  · exact ⟨[], by simp [report, hp], h⟩
  · exact ⟨[⟨cause, s.pending⟩], by simp [report, hp], List.suffix_rfl, h⟩

end Cursor

structure Reading (s : Cursor) (α : Type) where
  value : α
  next : Cursor
  leads : s.Leads next

namespace Reading
variable {s t : Cursor} {α β : Type}

theorem length_le (r : Reading s α) : r.next.pending.length ≤ s.pending.length :=
  r.leads.length_le

def stay (s : Cursor) (value : α) : Reading s α := ⟨value, s, .refl s⟩

def move (value : α) (rest : List Lexeme) (h : s.Leads (s.moveTo rest)) : Reading s α :=
  ⟨value, s.moveTo rest, h⟩

def fault (s : Cursor) (cause : FaultCause) (value : α) : Reading s α :=
  ⟨value, s.report cause, s.leads_report cause⟩

def widen (h : s.Leads t) (r : Reading t α) : Reading s α :=
  ⟨r.value, r.next, h.trans r.leads⟩

def map (f : α → β) (r : Reading s α) : Reading s β := ⟨f r.value, r.next, r.leads⟩

def bind (r : Reading s α) (go : α → (t : Cursor) → s.Leads t → Reading t β) : Reading s β :=
  (go r.value r.next r.leads).widen r.leads

@[simp] theorem map_value (f : α → β) (r : Reading s α) : (r.map f).value = f r.value := rfl

@[simp] theorem map_next (f : α → β) (r : Reading s α) : (r.map f).next = r.next := rfl

@[simp] theorem widen_value (h : s.Leads t) (r : Reading t α) : (r.widen h).value = r.value := rfl

@[simp] theorem widen_next (h : s.Leads t) (r : Reading t α) : (r.widen h).next = r.next := rfl

@[simp] theorem bind_value (r : Reading s α) (go : α → (t : Cursor) → s.Leads t → Reading t β) :
    (r.bind go).value = (go r.value r.next r.leads).value := rfl

@[simp] theorem bind_next (r : Reading s α) (go : α → (t : Cursor) → s.Leads t → Reading t β) :
    (r.bind go).next = (go r.value r.next r.leads).next := rfl

end Reading

namespace Cursor

def expect (s : Cursor) (slot : SymbolSlot) : Reading s Bool :=
  match h : s.pending with
  | .symbol b :: rest =>
    if b = slot.symbol then .move true rest (leads_of_cons h)
    else .fault s (.missingSymbol slot) false
  | _ => .fault s (.missingSymbol slot) false

def expectName (s : Cursor) (slot : NameSlot) : Reading s (Option String) :=
  match h : s.pending with
  | .name word :: rest => .move (some word) rest (leads_of_cons h)
  | _ => .fault s (.missingName slot) none

end Cursor
end ScriptFrontend.Parse
