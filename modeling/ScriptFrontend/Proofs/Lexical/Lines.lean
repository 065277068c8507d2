import ScriptFrontend.Text.Lines

/-!
# Lines behind a line feed

A text in front, ended by a line feed, moves the lines of a text down by the number of its own lines
and changes none of them. A text in front without a line feed belongs to the first line.
-/
namespace ScriptFrontend.Text

theorem pieces_lineFeed (a b : List Char) : pieces (a ++ '\n' :: b) = pieces a ++ pieces b := by
  induction a with
  | nil => simp [pieces]
  | cons c a ih =>
    rw [List.cons_append, pieces, pieces, ih]
    split
    · rfl
    · cases front : pieces a with
      | nil => exact absurd front (pieces_ne_nil a)
      | cons p ps => rfl

theorem pieces_append_plain {line rest q : List Char} {qs : List (List Char)} (plain : '\n' ∉ line)
    (split : pieces rest = q :: qs) : pieces (line ++ rest) = (line ++ q) :: qs := by
  induction line with
  | nil => exact split
  | cons c line ih =>
    have other : c ≠ '\n' := fun feed => plain (feed ▸ List.mem_cons_self)
    have later := ih (fun feed => plain (List.mem_cons_of_mem c feed))
    rw [List.cons_append, pieces, if_neg other, later]
    rfl

theorem pieces_plain {line : List Char} (plain : '\n' ∉ line) : pieces line = [line] := by
  have only : pieces (line ++ []) = [line ++ []] := pieces_append_plain plain rfl
  rwa [List.append_nil] at only

theorem length_pieces (a : List Char) : (pieces a).length = 1 + a.count '\n' := by
  induction a with
  | nil => rfl
  | cons c a ih =>
    rw [pieces]
    split
    · rename_i feed
      rw [feed, List.length_cons, ih, List.count_cons_self]
      omega
    · rename_i other
      rw [List.count_cons_of_ne other, ← ih]
      cases front : pieces a with
      | nil => exact absurd front (pieces_ne_nil a)
      | cons p ps => rfl

theorem linesOfPieces_append (ps : List (List Char)) {qs : List (List Char)} (nonempty : qs ≠ []) :
    linesOfPieces (ps ++ qs) = ps.map dropReturn ++ linesOfPieces qs := by
  obtain ⟨q, qs, rfl⟩ := List.exists_cons_of_ne_nil nonempty
  induction ps with
  | nil => rfl
  | cons p ps ih =>
    rw [List.map_cons, List.cons_append, List.cons_append, ← ih]
    cases ps <;> rfl

theorem lines_below (a b : String) :
    lines (a ++ "\n" ++ b) =
      ((pieces a.toList).map dropReturn).map String.ofList ++ lines b := by
  have joined : (a ++ "\n" ++ b).toList = a.toList ++ '\n' :: b.toList := by
    simp [String.toList_append]
  rw [lines, joined, pieces_lineFeed, linesOfPieces_append _ (pieces_ne_nil _), List.map_append]
  rfl

theorem nthLine?_below (a b : String) {n : Nat} (counted : 0 < n) :
    nthLine? (lines (a ++ "\n" ++ b)) (n + (1 + a.toList.count '\n')) = nthLine? (lines b) n := by
  have front : (((pieces a.toList).map dropReturn).map String.ofList).length =
      1 + a.toList.count '\n' := by
    rw [List.length_map, List.length_map, length_pieces]
  have le : (((pieces a.toList).map dropReturn).map String.ofList).length ≤
      n + (1 + a.toList.count '\n') - 1 := by
    rw [front]
    omega
  rw [nthLine?, nthLine?, if_neg (by omega), if_neg (by omega), lines_below,
    List.getElem?_append_right le, front]
  congr 1
  omega

/-! Lines put together -/

/-- What a line can be: no line feed stands in it, and no carriage return at its end. -/
def IsLine (l : String) : Prop := '\n' ∉ l.toList ∧ l.toList.getLast? ≠ some '\r'

theorem IsLine.dropReturn {l : String} (h : IsLine l) : dropReturn l.toList = l.toList :=
  if_neg h.2

theorem lines_feed {l : String} (plain : '\n' ∉ l.toList) (rest : String) :
    lines (l ++ "\n" ++ rest) = String.ofList (Text.dropReturn l.toList) :: lines rest := by
  rw [lines_below, pieces_plain plain]
  rfl

theorem lines_cons {l : String} (h : IsLine l) (rest : String) :
    lines (l ++ "\n" ++ rest) = l :: lines rest := by
  rw [lines_feed h.1, h.dropReturn, String.ofList_toList]

/-- Lines that a line feed ends each are read back. -/
theorem lines_join {ls : List String} (h : ∀ l ∈ ls, IsLine l) :
    lines (String.join (ls.map (· ++ "\n"))) = ls := by
  induction ls with
  | nil => rfl
  | cons l ls ih =>
    obtain ⟨first, others⟩ := List.forall_mem_cons.1 h
    rw [List.map_cons, String.join_cons, lines_cons first, ih others]

/-- Lines with line feeds between them are read back, the last one too unless it is empty. -/
theorem lines_intercalate {ls : List String} (h : ∀ l ∈ ls, IsLine l ∧ l ≠ "") :
    lines ("\n".intercalate ls) = ls := by
  induction ls with
  | nil => rfl
  | cons l ls ih =>
    obtain ⟨⟨line, filled⟩, others⟩ := List.forall_mem_cons.1 h
    cases ls with
    | nil =>
      have chars : l.toList ≠ [] := fun none => filled (String.toList_eq_nil_iff.1 none)
      rw [String.intercalate_singleton, lines, pieces_plain line.1, linesOfPieces, if_neg chars,
        List.map_singleton, String.ofList_toList]
    | cons m ls =>
      rw [String.intercalate_cons_cons, lines_cons line, ih others]

theorem lines_intercalate_feed {ls : List String} (h : ∀ l ∈ ls, IsLine l) (nonempty : ls ≠ [])
    (rest : String) : lines ("\n".intercalate ls ++ "\n" ++ rest) = ls ++ lines rest := by
  induction ls with
  | nil => exact absurd rfl nonempty
  | cons l ls ih =>
    obtain ⟨line, others⟩ := List.forall_mem_cons.1 h
    cases ls with
    | nil => rw [String.intercalate_singleton, lines_cons line, List.singleton_append]
    | cons m ls =>
      have later := ih others (List.cons_ne_nil m ls)
      rw [String.intercalate_cons_cons, String.append_assoc, String.append_assoc, lines_cons line,
        ← String.append_assoc]
      exact congrArg (l :: ·) later

end ScriptFrontend.Text
