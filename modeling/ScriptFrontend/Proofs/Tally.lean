import ScriptFrontend.Tally

/-!
# What a tally counts

A tally holds every key that was counted, once, in increasing order of rank and with the number of
times that it was counted. The numbers add up to the number of times that anything was.
-/
namespace ScriptFrontend.Tally
variable {κ : Type} {rank : κ → Nat} {entries : List (κ × Nat)}

/-! The sum of the counts -/

theorem total_bump (t : Tally κ) (k : κ) : (t.bump rank k).total = t.total + 1 := by
  obtain ⟨entries⟩ := t
  induction entries with
  | nil => rfl
  | cons entry entries ih =>
    obtain ⟨j, count⟩ := entry
    simp only [bump, total] at ih ⊢
    rw [bumpIn]
    split
    · simp only [List.foldr_cons]
      omega
    · split
      · simp only [List.foldr_cons]
        omega
      · rw [List.foldr_cons, List.foldr_cons, ih]
        omega

theorem total_bumpAll (t : Tally κ) (ks : List κ) :
    (t.bumpAll rank ks).total = t.total + ks.length := by
  induction ks generalizing t with
  | nil => rfl
  | cons k ks ih =>
    have rest := ih (t.bump rank k)
    rw [t.total_bump, bumpAll] at rest
    rw [bumpAll, List.foldl_cons, rest, List.length_cons]
    omega

/-! One count more -/

/-- The keys stand in increasing order of rank, so each stands there once. -/
def Ordered (rank : κ → Nat) (entries : List (κ × Nat)) : Prop :=
  (entries.map Prod.fst).Pairwise fun j k => rank j < rank k

theorem mem_keys_bumpIn {j k : κ} (mem : j ∈ (bumpIn rank k entries).map Prod.fst) :
    j = k ∨ j ∈ entries.map Prod.fst := by
  induction entries with
  | nil => exact .inl (List.mem_singleton.1 mem)
  | cons entry entries ih =>
    obtain ⟨i, n⟩ := entry
    rw [bumpIn] at mem
    split at mem
    · exact List.mem_cons.1 mem
    · split at mem
      · exact .inr mem
      · rcases List.mem_cons.1 mem with rfl | later
        · exact .inr List.mem_cons_self
        · exact (ih later).imp_right (List.mem_cons_of_mem i)

theorem Ordered.bumpIn (h : Ordered rank entries) (k : κ) : Ordered rank (bumpIn rank k entries) := by
  induction entries with
  | nil => exact List.pairwise_singleton _ _
  | cons entry entries ih =>
    obtain ⟨i, n⟩ := entry
    obtain ⟨first, others⟩ := List.pairwise_cons.1 h
    rw [Tally.bumpIn]
    split
    · rename_i below
      refine List.pairwise_cons.2 ⟨fun j mem => ?_, h⟩
      rcases List.mem_cons.1 mem with rfl | later
      · exact below
      · exact Nat.lt_trans below (first j later)
    · split
      · exact h
      · refine List.pairwise_cons.2 ⟨fun j mem => ?_, ih others⟩
        rcases mem_keys_bumpIn mem with rfl | later
        · change rank i < rank j
          omega
        · exact first j later

theorem Ordered.pairwise (h : Ordered rank entries) :
    entries.Pairwise fun a b => rank a.1 < rank b.1 := by
  rwa [Ordered, List.pairwise_map] at h

theorem Ordered.nodup (h : Ordered rank entries) : entries.Nodup := by
  refine h.pairwise.imp fun {a b} below same => ?_
  exact Nat.ne_of_lt below (congrArg (fun entry => rank entry.1) same)

variable [DecidableEq κ]

theorem lookup_eq_none_of_lt (rank : κ → Nat) {k : κ} (h : ∀ j ∈ entries.map Prod.fst, rank k < rank j) :
    entries.lookup k = none := by
  refine List.lookup_eq_none_iff.2 fun entry mem => ?_
  have below := h entry.1 (List.mem_map_of_mem mem)
  rw [bne_iff_ne]
  exact fun same => Nat.ne_of_lt below (congrArg rank same)

theorem Ordered.lookup_bumpIn (h : Ordered rank entries) (injective : Function.Injective rank) (j k : κ) :
    (Tally.bumpIn rank k entries).lookup j =
      if j = k then some ((entries.lookup k).getD 0 + 1) else entries.lookup j := by
  have found (i : κ) (n : Nat) (rest : List (κ × Nat)) :
      ((i, n) :: rest).lookup j = if j = i then some n else rest.lookup j := by
    by_cases here : j = i
    · rw [if_pos here, here, List.lookup_cons_self]
    · rw [if_neg here, List.lookup_cons, beq_eq_false_iff_ne.2 here]
  induction entries with
  | nil => exact found k 1 []
  | cons entry entries ih =>
    obtain ⟨i, n⟩ := entry
    obtain ⟨first, others⟩ := List.pairwise_cons.1 h
    rw [Tally.bumpIn]
    split
    · rename_i below
      have new : ((i, n) :: entries).lookup k = none := by
        refine lookup_eq_none_of_lt rank fun j mem => ?_
        rcases List.mem_cons.1 mem with rfl | later
        · exact below
        · exact Nat.lt_trans below (first j later)
      rw [found, new]
      rfl
    · split
      · rename_i same
        rw [injective same, found, found, List.lookup_cons_self]
        split <;> rfl
      · rename_i other
        have skipped : ((i, n) :: entries).lookup k = entries.lookup k := by
          rw [List.lookup_cons, beq_eq_false_iff_ne.2 fun same => other (congrArg rank same)]
        rw [found, ih others, skipped, found]
        by_cases here : j = i
        · have apart : j ≠ k := fun same => other (congrArg rank (same.symm.trans here))
          rw [if_pos here, if_neg apart, if_pos here]
        · rw [if_neg here, if_neg here]

/-! All counts -/

/-- A tally of a list: what is found under a key is how often it stands in the list. -/
structure Counts (rank : κ → Nat) (t : Tally κ) (ks : List κ) : Prop where
  ordered : Ordered rank t.entries
  lookup : ∀ k, t.entries.lookup k = if k ∈ ks then some (ks.count k) else none

theorem counts_empty : Counts rank empty ([] : List κ) :=
  ⟨.nil, fun _ => rfl⟩

theorem Counts.bump {t : Tally κ} {ks : List κ} (h : Counts rank t ks)
    (injective : Function.Injective rank) (k : κ) : Counts rank (t.bump rank k) (k :: ks) := by
  refine ⟨h.ordered.bumpIn k, fun j => ?_⟩
  rw [Tally.bump, h.ordered.lookup_bumpIn injective, h.lookup, h.lookup]
  by_cases here : j = k
  · subst here
    rw [if_pos rfl, if_pos List.mem_cons_self, List.count_cons_self]
    split
    · rfl
    · rename_i absent
      rw [List.count_eq_zero_of_not_mem absent]
      rfl
  · rw [if_neg here, List.count_cons_of_ne (Ne.symm here)]
    simp [here]

theorem Counts.bumpAll {t : Tally κ} {js : List κ} (h : Counts rank t js)
    (injective : Function.Injective rank) (ks : List κ) :
    Counts rank (t.bumpAll rank ks) (ks.reverse ++ js) := by
  induction ks generalizing t js with
  | nil => exact h
  | cons k ks ih =>
    have rest := ih (h.bump injective k)
    rwa [List.append_cons, ← List.reverse_cons] at rest

/-- The tally of a list has one entry for each of its members and no other. -/
theorem lookup_bumpAll (injective : Function.Injective rank) (ks : List κ) (k : κ) :
    (empty.bumpAll rank ks).entries.lookup k = if k ∈ ks then some (ks.count k) else none := by
  rw [(counts_empty.bumpAll injective ks).lookup, List.append_nil, List.count_reverse]
  simp only [List.mem_reverse]

theorem has_bumpAll (injective : Function.Injective rank) (ks : List κ) (k : κ) :
    (empty.bumpAll rank ks).has k = true ↔ k ∈ ks := by
  rw [has, lookup_bumpAll injective]
  split
  · rename_i present
    exact iff_of_true rfl present
  · rename_i absent
    exact iff_of_false Bool.false_ne_true absent

theorem Ordered.lookup_of_mem (h : Ordered rank entries) {entry : κ × Nat} (mem : entry ∈ entries) :
    entries.lookup entry.1 = some entry.2 := by
  induction entries with
  | nil => cases mem
  | cons first entries ih =>
    obtain ⟨before, others⟩ := List.pairwise_cons.1 h
    rcases List.mem_cons.1 mem with rfl | later
    · exact List.lookup_cons_self
    · have below := before entry.1 (List.mem_map_of_mem later)
      have apart : entry.1 ≠ first.1 := fun same => Nat.ne_of_gt below (congrArg rank same)
      rw [List.lookup_cons, beq_eq_false_iff_ne.2 apart]
      exact ih others later

theorem Ordered.mem_iff (h : Ordered rank entries) (entry : κ × Nat) :
    entry ∈ entries ↔ entries.lookup entry.1 = some entry.2 := by
  refine ⟨h.lookup_of_mem, fun found => ?_⟩
  obtain ⟨before, behind, cut, -⟩ := List.lookup_eq_some_iff.1 found
  rw [cut]
  exact List.mem_append_right before List.mem_cons_self

theorem count_bumpAll (injective : Function.Injective rank) (ks : List κ) (k : κ) :
    (empty.bumpAll rank ks).count k = ks.count k := by
  rw [count, lookup_bumpAll injective]
  split
  · rfl
  · rename_i absent
    exact (List.count_eq_zero_of_not_mem absent).symm

theorem ordered_bumpAll (injective : Function.Injective rank) (ks : List κ) :
    Ordered rank (empty.bumpAll rank ks).entries :=
  (counts_empty.bumpAll injective ks).ordered

/-- A key has an entry exactly if it was counted, and then with its count. -/
theorem mem_bumpAll_iff (injective : Function.Injective rank) (ks : List κ) (k : κ) (n : Nat) :
    (k, n) ∈ (empty.bumpAll rank ks).entries ↔ n ≠ 0 ∧ ks.count k = n := by
  rw [(ordered_bumpAll injective ks).mem_iff, lookup_bumpAll injective]
  split
  · rename_i present
    have counted : ks.count k ≠ 0 := Nat.pos_iff_ne_zero.1 (List.count_pos_iff.2 present)
    constructor
    · intro found
      have same : ks.count k = n := Option.some.inj found
      exact ⟨same ▸ counted, same⟩
    · rintro ⟨-, rfl⟩
      rfl
  · rename_i absent
    rw [List.count_eq_zero_of_not_mem absent]
    constructor
    · intro found
      cases found
    · rintro ⟨other, same⟩
      exact absurd same.symm other

/-! The order of counting -/

/-- Entries in order are known by what is found under each key. -/
theorem Ordered.eq_of_lookup {others : List (κ × Nat)} (h : Ordered rank entries)
    (h' : Ordered rank others) (same : ∀ k, entries.lookup k = others.lookup k) : entries = others := by
  have perm : entries.Perm others :=
    (List.perm_ext_iff_of_nodup h.nodup h'.nodup).2 fun entry => by
      rw [h.mem_iff, h'.mem_iff, same]
  refine List.Perm.eq_of_pairwise ?_ h.pairwise h'.pairwise perm
  intro a b _ _ below above
  exact absurd (Nat.lt_trans below above) (Nat.lt_irrefl _)

/-- In which order keys are counted makes no difference. -/
theorem bumpAll_perm (injective : Function.Injective rank) {js ks : List κ} (perm : js.Perm ks) :
    empty.bumpAll rank js = empty.bumpAll rank ks := by
  have entries : (empty.bumpAll rank js).entries = (empty.bumpAll rank ks).entries := by
    refine (ordered_bumpAll injective js).eq_of_lookup (ordered_bumpAll injective ks) fun k => ?_
    rw [lookup_bumpAll injective, lookup_bumpAll injective, perm.count_eq]
    simp only [perm.mem_iff]
  exact congrArg Tally.mk entries

end ScriptFrontend.Tally
