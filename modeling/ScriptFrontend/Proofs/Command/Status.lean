import ScriptFrontend.Proofs.Command.Arguments
import ScriptFrontend.Proofs.Tree.OutlineLines

/-!
# What the exit code says

A run that reads a program takes one of four courses: the text is blank, it does not lex, it has
faults, or it is summarized. The exit code is one exactly if something is written as an error, and the
summary with its counts is written exactly if the code is zero and there was a program.
-/
namespace ScriptFrontend.Command

variable {source : String}

/-! The course of a run -/

/-- What can come of a text, as long as the explorer is not shown. -/
inductive Course (source : String) : Report → Prop where
  | blank (empty : Unicode.isBlankText source = true) :
    Course source ⟨0, unlines ["No input provided"], "", none⟩
  | refused {e : LexError} (filled : Unicode.isBlankText source = false)
    (lexed : tokenize source = .error e) : Course source ⟨1, heading, unlines [e.render], none⟩
  | faulty {tokens : List Token} {o : ParseOutcome} (filled : Unicode.isBlankText source = false)
    (lexed : tokenize source = .ok tokens) (parsed : parse source = .ok o)
    (faults : o.diagnostics ≠ []) :
    Course source ⟨1, heading ++ tokenListing tokens ++ closing, faultReport o.diagnostics, none⟩
  | summarized {tokens : List Token} {o : ParseOutcome} (filled : Unicode.isBlankText source = false)
    (lexed : tokenize source = .ok tokens) (parsed : parse source = .ok o)
    (faultless : o.diagnostics = []) :
    Course source ⟨0, heading ++ tokenListing tokens ++ summary o.program ++ closing, "", none⟩

variable {r : Report}

theorem unlines_cons (l : String) (ls : List String) : unlines (l :: ls) = l ++ "\n" ++ unlines ls :=
  String.join_cons

def countLine (n : Nat) (unit : String) : String := "AST contains " ++ toString n ++ unit

/-- The lines with the counts, and the tree behind them. -/
def counted (statements nodes : Nat) (tree : String) : String :=
  unlines ["", "Parsing successful", countLine statements " statements", countLine nodes " nodes", "",
    Text.rule '-' 40, "AST STRUCTURE:", Text.rule '-' 40] ++ tree

/-- Among the lines that make up a text with counts is one that announces them. -/
theorem mem_endedLines_counted (statements nodes : Nat) (front tree rest : String) :
    "Parsing successful" ∈ Text.endedLines (front ++ counted statements nodes tree ++ rest) := by
  obtain ⟨behind, split⟩ : ∃ behind, counted statements nodes tree =
      "\n" ++ ("Parsing successful" ++ ("\n" ++ behind)) := by
    rw [counted, unlines_cons, unlines_cons]
    generalize unlines _ = more
    exact ⟨more ++ tree, by simp only [String.append_assoc, String.empty_append]⟩
  have chars : (front ++ counted statements nodes tree ++ rest).toList =
      front.toList ++ '\n' :: ("Parsing successful".toList ++ '\n' :: (behind ++ rest).toList) := by
    simp [split]
  have plain : '\n' ∉ "Parsing successful".toList := by decide
  rw [Text.endedLines, chars, Text.pieces_lineFeed, Text.pieces_lineFeed, Text.pieces_plain plain,
    ← List.append_assoc, List.dropLast_append_of_ne_nil (Text.pieces_ne_nil _), List.map_append,
    List.map_append, List.map_singleton, String.ofList_toList]
  exact List.mem_append_left _ (List.mem_append_right _ List.mem_cons_self)

/-- Written in whole lines, none of which announces counts. -/
def CountFree (output : String) : Prop :=
  ∃ ls, output = unlines ls ∧ ∀ l ∈ ls, '\n' ∉ l.toList ∧ l ≠ "Parsing successful"

theorem CountFree.ne_counted {output : String} (h : CountFree output) (statements nodes : Nat)
    (front tree rest : String) : output ≠ front ++ counted statements nodes tree ++ rest := by
  obtain ⟨ls, rfl, free⟩ := h
  intro same
  have announced := mem_endedLines_counted statements nodes front tree rest
  rw [← same, unlines, Text.endedLines_join fun l mem => (free l mem).1] at announced
  exact (free _ announced).2 rfl

theorem CountFree.append {x y : String} (h : CountFree x) (h' : CountFree y) : CountFree (x ++ y) := by
  obtain ⟨ls, rfl, free⟩ := h
  obtain ⟨ms, rfl, free'⟩ := h'
  refine ⟨ls ++ ms, ?_, List.forall_mem_append.2 ⟨free, free'⟩⟩
  rw [unlines, unlines, unlines, List.map_append, String.join_append]

theorem countFree_closing : CountFree closing := ⟨_, rfl, by decide +kernel⟩

/-- What is written of a program before its report. The listing of the tokens repeats the texts in the
program, whatever they say. -/
def opening (tokens : List Token) : String := heading ++ tokenListing tokens

variable {tokens : List Token} {o : ParseOutcome}

theorem ne_opening (tokens : List Token) (report : String) :
    unlines ["No input provided"] ≠ opening tokens ++ report := by
  intro same
  have ruled : '=' ∈ heading.toList := by decide +kernel
  have inside : '=' ∈ (opening tokens ++ report).toList := by simp [opening, ruled]
  rw [← same] at inside
  exact absurd inside (by decide)

/-- What is written of a text that is parsed. -/
theorem Course.output_parsed (h : Course source r) (lexed : tokenize source = .ok tokens)
    (parsed : parse source = .ok o) :
    (Unicode.isBlankText source = true ∧ r.output = unlines ["No input provided"]) ∨
      (Unicode.isBlankText source = false ∧ o.diagnostics ≠ [] ∧
        r.output = opening tokens ++ closing) ∨
      (Unicode.isBlankText source = false ∧ o.diagnostics = [] ∧ r.exitCode = 0 ∧
        r.output = opening tokens ++ (summary o.program ++ closing)) := by
  cases h with
  | blank empty => exact .inl ⟨empty, rfl⟩
  | refused filled refused =>
    rw [lexed] at refused
    cases refused
  | faulty filled lexed' parsed' faults =>
    obtain rfl := Except.ok.inj (lexed.symm.trans lexed')
    obtain rfl := Except.ok.inj (parsed.symm.trans parsed')
    exact .inr (.inl ⟨filled, faults, rfl⟩)
  | summarized filled lexed' parsed' faultless =>
    obtain rfl := Except.ok.inj (lexed.symm.trans lexed')
    obtain rfl := Except.ok.inj (parsed.symm.trans parsed')
    refine .inr (.inr ⟨filled, faultless, rfl, ?_⟩)
    dsimp only [opening]
    rw [String.append_assoc, String.append_assoc]

/-- Nowhere behind the listing are there counts and a tree, unless the text is a program without faults. -/
theorem Course.told (h : Course source r) (lexed : tokenize source = .ok tokens)
    (parsed : parse source = .ok o) {statements nodes : Nat} {front tree rest : String}
    (output : r.output = opening tokens ++ (front ++ counted statements nodes tree ++ rest)) :
    Unicode.isBlankText source = false ∧ o.diagnostics = [] := by
  rcases h.output_parsed lexed parsed with ⟨-, blank⟩ | ⟨-, -, faulty⟩ | ⟨filled, faultless, -, -⟩
  · exact absurd (blank.symm.trans output) (ne_opening tokens _)
  · have same := (String.append_right_inj _).1 (faulty.symm.trans output)
    exact absurd same (countFree_closing.ne_counted statements nodes front tree rest)
  · exact ⟨filled, faultless⟩

variable {arguments : List String} {typed : String} {files : String → Option String}

end ScriptFrontend.Command
