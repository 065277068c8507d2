import ScriptFrontend.Parse.Statement
import ScriptFrontend.Proofs.Syntax.Fusion

/-!
# Readings that follow a language

A language here is a set of rows of lexemes with values. A reading without earlier faults follows a
language when either no fault was noted and what was read belongs to the language with the value
that came out, or the row before the first fault can be completed to a member of the language. The
property passes from parts to the whole: what comes behind a part has to follow the language of all
rows that complete the part. Every routine of the reader follows the phrases of its nonterminal.
-/
namespace ScriptFrontend.Parse

def Reading.Follows {s : Cursor} {α : Type} (D : List Lexeme → α → Prop) (r : Reading s α) : Prop :=
  s.faults = [] →
    (r.next.faults = [] ∧ ∃ ls, s.pending = ls ++ r.next.pending ∧ D ls r.value) ∨
    ∃ f, r.next.faults.head? = some f ∧
      ∃ before, s.pending = before ++ f.rest ∧ ∃ more v, D (before ++ more) v

/-- The first fault stays the first. -/
theorem Cursor.Leads.head?_faults {s t : Cursor} {f : Fault} (h : s.Leads t)
    (hf : s.faults.head? = some f) : t.faults.head? = some f := by
  obtain ⟨later, faults, -⟩ := h
  rw [faults, List.head?_append, hf]
  rfl

theorem Cursor.Leads.faults_ne_nil {s t : Cursor} (h : s.Leads t) (hs : s.faults ≠ []) :
    t.faults ≠ [] := by
  obtain ⟨later, faults, -⟩ := h
  simp [faults, hs]

theorem Cursor.not_panicking {s : Cursor} (h : s.faults = []) : s.panicking = false :=
  Bool.eq_false_iff.2 fun panics => s.noted panics h

theorem Cursor.report_faults {s : Cursor} (h : s.faults = []) (cause : FaultCause) :
    (s.report cause).faults = [⟨cause, s.pending⟩] := by
  simp [report, Cursor.not_panicking h, h]

theorem Cursor.report_faults_ne_nil (s : Cursor) (cause : FaultCause) : (s.report cause).faults ≠ [] :=
  (s.report cause).noted rfl

/-! Where no operand can start, the fault is noted and the substitute handed out, whether or not a
lexeme is given up. -/

theorem noOperand_value (s : Cursor) : (noOperand s).value = .placeholder := by
  unfold noOperand
  split <;> rfl

theorem noOperand_faults (s : Cursor) :
    (noOperand s).next.faults = (s.report .noOperand).faults := by
  unfold noOperand
  split <;> rfl

theorem noOperand_panicking (s : Cursor) : (noOperand s).next.panicking = true := by
  unfold noOperand
  split <;> rfl

namespace Reading.Follows
variable {s t : Cursor} {α β : Type} {D : List Lexeme → α → Prop} {E : List Lexeme → β → Prop}

theorem stay {v : α} (h : D [] v) : (Reading.stay s v).Follows D := by
  intro clean
  exact .inl ⟨clean, [], rfl, h⟩

theorem move {v : α} {l : Lexeme} {rest : List Lexeme} (hs : s.pending = l :: rest) (h : D [l] v)
    (lead : s.Leads (s.moveTo rest)) : (Reading.move v rest lead).Follows D := by
  intro clean
  exact .inl ⟨clean, [l], hs, h⟩

/-- A fault at the very start needs no more than some member of the language. -/
theorem fault {ls : List Lexeme} {w : α} (h : D ls w) (cause : FaultCause) (v : α) :
    (Reading.fault s cause v).Follows D := by
  intro clean
  refine .inr ⟨⟨cause, s.pending⟩, ?_, [], rfl, ls, w, h⟩
  simp [Reading.fault, Cursor.report_faults clean]

theorem map {r : Reading s α} (hr : r.Follows D) (f : α → β) (h : ∀ ls v, D ls v → E ls (f v)) :
    (r.map f).Follows E := by
  intro clean
  rcases hr clean with ⟨quiet, ls, cut, hv⟩ | ⟨fault, first, before, cut, more, v, hv⟩
  · exact .inl ⟨quiet, ls, cut, h _ _ hv⟩
  · exact .inr ⟨fault, first, before, cut, more, f v, h _ _ hv⟩

theorem mono {D' : List Lexeme → α → Prop} {r : Reading s α} (hr : r.Follows D)
    (h : ∀ ls v, D ls v → D' ls v) : r.Follows D' :=
  hr.map id h

/-- Lexemes in front of a reading are in front of every row of its language. -/
theorem widen (front : List Lexeme) {r : Reading t β} (cut : s.pending = front ++ t.pending)
    (same : t.faults = s.faults) (lead : s.Leads t) (hr : r.Follows fun ls v => E (front ++ ls) v) :
    (r.widen lead).Follows E := by
  intro clean
  rcases hr (same.trans clean) with ⟨quiet, ls, cut', hv⟩ | ⟨fault, first, before, cut', more, v, hv⟩
  · exact .inl ⟨quiet, front ++ ls, by simp [cut, cut'], hv⟩
  · exact .inr ⟨fault, first, front ++ before, by simp [cut, cut'], more, v, by simpa using hv⟩

theorem behind {l : Lexeme} {rest : List Lexeme} (hs : s.pending = l :: rest)
    (lead : s.Leads (s.moveTo rest)) {r : Reading (s.moveTo rest) β}
    (hr : r.Follows fun ls v => E (l :: ls) v) : (r.widen lead).Follows E :=
  widen (t := s.moveTo rest) [l] hs rfl lead hr

theorem behind₂ {l m : Lexeme} {rest : List Lexeme} (hs : s.pending = l :: m :: rest)
    (lead : s.Leads (s.moveTo rest)) {r : Reading (s.moveTo rest) β}
    (hr : r.Follows fun ls v => E (l :: m :: ls) v) : (r.widen lead).Follows E :=
  widen (t := s.moveTo rest) [l, m] hs rfl lead hr

/-- A part and what is read behind it, where every row of the part can be gone on with. -/
theorem andThen {r : Reading s α} {r' : Reading r.next β} (hr : r.Follows D)
    (h : ∀ front, D front r.value → r'.Follows fun ls w => E (front ++ ls) w)
    (completes : ∀ front v, D front v → ∃ ls w, E (front ++ ls) w) :
    (r'.widen r.leads).Follows E := by
  intro clean
  rcases hr clean with ⟨quiet, front, cut, hv⟩ | ⟨fault, first, before, cut, more, v, hv⟩
  · rcases h front hv quiet with
      ⟨still, ls, cut', hw⟩ | ⟨fault, first, before, cut', more, w, hw⟩
    · exact .inl ⟨still, front ++ ls, by simp [cut, cut'], hw⟩
    · exact .inr ⟨fault, first, front ++ before, by simp [cut, cut'], more, w, by simpa using hw⟩
  · obtain ⟨ls, w, hw⟩ := completes _ _ hv
    exact .inr ⟨fault, r'.leads.head?_faults first, before, cut, more ++ ls, w, by simpa using hw⟩

theorem bind {r : Reading s α} {go : α → (t : Cursor) → s.Leads t → Reading t β}
    (hr : r.Follows D)
    (hg : ∀ front v t lead, D front v → (go v t lead).Follows fun ls w => E (front ++ ls) w) :
    (r.bind go).Follows E := by
  intro clean
  refine hr.andThen (fun front hv => hg front _ _ _ hv) (fun front v hv => ?_) clean
  -- Behind a completed part any cursor will do; the end of the input is one.
  have lead : s.Leads (.start []) := ⟨[], by simp [clean], List.nil_suffix⟩
  rcases hg front v (.start []) lead hv rfl with ⟨-, ls, -, hw⟩ | ⟨-, -, before, -, more, w, hw⟩
  · exact ⟨ls, _, hw⟩
  · exact ⟨before ++ more, w, hw⟩

end Reading.Follows
end ScriptFrontend.Parse
