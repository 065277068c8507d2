import ScriptFrontend.Proofs.Lexical.Grammar

/-!
# Gaps

The gap that the scanner splits off is the longest one.
-/
namespace ScriptFrontend.Scanning
variable {rest gap body : List Char}

theorem isGapChar_iff (c : Char) : isGapChar c = true ↔ c ∈ [' ', '\t', '\r', '\n'] := by
  simp [isGapChar, or_assoc]

theorem splitGap_blank {c : Char} (h : c ∈ [' ', '\t', '\r', '\n']) (cs : List Char) :
    splitGap false (c :: cs) = (c :: (splitGap false cs).1, (splitGap false cs).2) := by
  have blank := (isGapChar_iff c).2 h
  have plain : decide (c = '#') = false := by
    rw [decide_eq_false_iff_not]
    rintro rfl
    simp at h
  simp [splitGap, blank, plain]

theorem splitGap_comment (cs : List Char) :
    splitGap false ('#' :: cs) = ('#' :: (splitGap true cs).1, (splitGap true cs).2) := by
  simp [splitGap]

theorem splitGap_other {c : Char} (h : c ∉ [' ', '\t', '\r', '\n']) (h' : c ≠ '#') (cs : List Char) :
    splitGap false (c :: cs) = ([], c :: cs) := by
  have other : isGapChar c = false := Bool.eq_false_iff.2 (mt (isGapChar_iff c).1 h)
  simp [splitGap, other, h']

theorem splitGap_body (h : '\n' ∉ body) (cs : List Char) :
    splitGap true (body ++ cs) = (body ++ (splitGap true cs).1, (splitGap true cs).2) := by
  induction body with
  | nil => rfl
  | cons c body ih =>
    obtain ⟨here, later⟩ := not_or.1 (mt List.mem_cons.2 h)
    simp [splitGap, Ne.symm here, ih later]

theorem splitGap_lineFeed (cs : List Char) :
    splitGap true ('\n' :: cs) = ('\n' :: (splitGap false cs).1, (splitGap false cs).2) := by
  simp [splitGap]

/-- Whatever stands behind a gap, the scanner goes on there. -/
theorem splitGap_of_gapBefore (h : GapBefore rest gap) :
    splitGap false (gap ++ rest) = (gap ++ (splitGap false rest).1, (splitGap false rest).2) := by
  induction h with
  | nil => rfl
  | blank blank _ ih => rw [List.cons_append, splitGap_blank blank, ih]; rfl
  | comment inside _ ih =>
    rw [List.cons_append, List.append_assoc, splitGap_comment, splitGap_body inside,
      List.cons_append, splitGap_lineFeed, ih]
    simp
  | lastComment inside final =>
    subst final
    rw [List.cons_append, splitGap_comment, splitGap_body inside]
    rfl

theorem GapBefore.commented {c : Char} (h : GapBefore rest ('#' :: gap)) (hc : c ≠ '\n') :
    GapBefore rest ('#' :: c :: gap) := by
  generalize whole : '#' :: gap = commented at h
  cases h with
  | nil => cases whole
  | blank blank _ =>
    cases whole
    simp at blank
  | @comment body gap inside behind =>
    cases whole
    have longer : '\n' ∉ c :: body := by simp [inside, Ne.symm hc]
    exact .comment longer behind
  | lastComment inside final =>
    cases whole
    exact .lastComment (by simp [inside, Ne.symm hc]) final

/-- What is split off is a gap; inside a comment, it is one with the `#` in front. -/
theorem gapBefore_splitGap (inComment : Bool) (cs : List Char) :
    GapBefore (splitGap inComment cs).2
      (if inComment then '#' :: (splitGap inComment cs).1 else (splitGap inComment cs).1) := by
  induction cs generalizing inComment with
  | nil =>
    cases inComment with
    | false => exact .nil
    | true => exact .lastComment (by simp [splitGap]) rfl
  | cons c cs ih =>
    cases inComment with
    | false =>
      by_cases blank : c ∈ [' ', '\t', '\r', '\n']
      · rw [splitGap_blank blank]
        exact .blank blank (ih false)
      · by_cases opens : c = '#'
        · rw [opens, splitGap_comment]
          exact ih true
        · rw [splitGap_other blank opens]
          exact .nil
    | true =>
      by_cases ends : c = '\n'
      · rw [ends, splitGap_lineFeed]
        have empty : '\n' ∉ ([] : List Char) := by simp
        exact .comment empty (ih false)
      · have alone : '\n' ∉ [c] := by simpa using Ne.symm ends
        have inside := splitGap_body alone cs
        rw [List.singleton_append] at inside
        rw [inside]
        exact (ih true).commented ends

theorem splitGap_length_le {other : List Char} (h : GapBefore rest other) :
    other.length ≤ (splitGap false (other ++ rest)).1.length := by
  rw [splitGap_of_gapBefore h, List.length_append]
  exact Nat.le_add_right _ _

theorem longestGap_iff (text gap : List Char) :
    LongestGap text gap ↔ gap = (splitGap false text).1 := by
  constructor
  · rintro ⟨⟨rest, rfl, isGap⟩, longest⟩
    have split := splitGap_append false (gap ++ rest)
    have le := longest _ _ split.symm (gapBefore_splitGap false _)
    rw [splitGap_of_gapBefore isGap] at le ⊢
    rw [List.length_append] at le
    have empty : (splitGap false rest).1 = [] := List.eq_nil_of_length_eq_zero (by omega)
    simp [empty]
  · rintro rfl
    refine ⟨⟨_, (splitGap_append false text).symm, gapBefore_splitGap false text⟩, ?_⟩
    rintro other rest rfl isGap
    exact splitGap_length_le isGap

theorem longestGap_unique {text gap' rest' : List Char} (split : text = gap ++ rest)
    (h : LongestGap text gap) (split' : text = gap' ++ rest') (h' : LongestGap text gap') :
    gap = gap' ∧ rest = rest' := by
  have same : gap = gap' := ((longestGap_iff _ _).1 h).trans ((longestGap_iff _ _).1 h').symm
  subst same
  exact ⟨rfl, List.append_cancel_left (split.symm.trans split')⟩

end ScriptFrontend.Scanning
