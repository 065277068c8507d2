import ScriptFrontend.Proofs.Syntax.Follows

/-!
# Two readings side by side

Two inputs that agree up to and including one lexeme are read together. Either both readings are at
the same place before that lexeme and have gone the same way, or the second has met a fault, or the
first is past the lexeme without a fault at it or before it. The property passes from parts to the
whole.
-/
namespace ScriptFrontend.Parse
open Reading

/-- Everything up to the last lexemes `p` is settled: it is read, and no first fault lies in it. -/
def Cursor.Past (p : List Lexeme) (s : Cursor) : Prop :=
  s.pending.length ≤ p.length ∧ ∀ f, s.faults.head? = some f → f.rest.length ≤ p.length

section Past
variable {p rest : List Lexeme} {s t : Cursor}

theorem Cursor.Past.start (h : rest.length ≤ p.length) : (Cursor.start rest).Past p :=
  ⟨h, by simp⟩

theorem Cursor.Past.behind (p : List Lexeme) : (Cursor.start p).Past p :=
  .start (Nat.le_refl _)

theorem Cursor.Past.leads (h : s.Past p) (lead : s.Leads t) : t.Past p := by
  refine ⟨Nat.le_trans lead.length_le h.1, fun f first => ?_⟩
  obtain ⟨later, faults, trail⟩ := lead
  rw [faults, List.head?_append] at first
  cases before : s.faults.head? with
  | some g =>
    rw [before] at first
    obtain rfl : g = f := by simpa using first
    exact h.2 g before
  | none =>
    rw [before] at first
    have member : f ∈ later := List.mem_of_mem_head? (by simpa using first)
    exact Nat.le_trans (trail.rest_suffix f member).length_le h.1

theorem Cursor.Past.bind {α β : Type} {r : Reading s α} (h : r.next.Past p)
    (go : α → (t : Cursor) → s.Leads t → Reading t β) : (r.bind go).next.Past p :=
  h.leads (go _ _ r.leads).leads

end Past

section Tracks
variable {l : Lexeme} {p q : List Lexeme}

/-- The two inputs are read to the same place before the lexeme `l` with the same value, or the
second has a fault, or the first is past `l`. -/
def Tracks (l : Lexeme) (p q : List Lexeme) {s t : Cursor} {α : Type} (r : Reading s α)
    (r' : Reading t α) : Prop :=
  (r.value = r'.value ∧
    ∃ a, r.next = .start (a ++ l :: p) ∧ r'.next = .start (a ++ l :: q)) ∨
  r'.next.faults ≠ [] ∨ r.next.Past p

namespace Tracks
variable {s t s' t' : Cursor} {α β : Type}

theorem stay (v : α) (a : List Lexeme) :
    Tracks l p q (Reading.stay (.start (a ++ l :: p)) v) (Reading.stay (.start (a ++ l :: q)) v) :=
  .inl ⟨rfl, a, rfl, rfl⟩

theorem of_fault (r : Reading s α) (cause : FaultCause) (v : α) :
    Tracks l p q r (Reading.fault t cause v) :=
  .inr (.inl (t.report_faults_ne_nil cause))

/-- A reading that goes on right behind the lexeme is past it. -/
theorem of_behind {r : Reading (.start p) α} (lead : s.Leads (.start p)) (r' : Reading t α) :
    Tracks l p q (r.widen lead) r' :=
  .inr (.inr ((Cursor.Past.behind p).leads r.leads))

theorem widen {r : Reading s' α} {r' : Reading t' α} (h : Tracks l p q r r') (lead : s.Leads s')
    (lead' : t.Leads t') : Tracks l p q (r.widen lead) (r'.widen lead') := h

theorem map {r : Reading s α} {r' : Reading t α} (h : Tracks l p q r r') (f : α → β) :
    Tracks l p q (r.map f) (r'.map f) :=
  h.imp_left fun same => ⟨congrArg f same.1, same.2⟩

theorem bind {r : Reading s α} {r' : Reading t α}
    {go : α → (u : Cursor) → s.Leads u → Reading u β}
    {go' : α → (u : Cursor) → t.Leads u → Reading u β} (h : Tracks l p q r r')
    (k : ∀ v a lead lead', r.next = .start (a ++ l :: p) →
      Tracks l p q (go v (.start (a ++ l :: p)) lead) (go' v (.start (a ++ l :: q)) lead')) :
    Tracks l p q (r.bind go) (r'.bind go') := by
  obtain ⟨v, next, lead⟩ := r
  obtain ⟨v', next', lead'⟩ := r'
  rcases h with ⟨value, a, here, there⟩ | fault | past
  · dsimp only at value here there
    subst value here there
    exact k _ a lead lead' rfl
  · exact .inr (.inl ((go' _ _ lead').leads.faults_ne_nil fault))
  · exact .inr (.inr (past.leads (go _ _ lead).leads))

end Tracks

theorem head?_append_cons (a : List Lexeme) (l : Lexeme) (p q : List Lexeme) :
    (a ++ l :: p).head? = (a ++ l :: q).head? := by
  cases a <;> rfl

theorem length_le_of_leads {a b : List Lexeme}
    (h : (Cursor.start (b ++ l :: p)).Leads (.start (a ++ l :: p))) : a.length ≤ b.length := by
  have := h.length_le
  simp only [Cursor.start_pending, List.length_append] at this
  omega

end Tracks
end ScriptFrontend.Parse
