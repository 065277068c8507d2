import ScriptFrontend.Proofs.Command.Arguments
import ScriptFrontend.Proofs.Lexical.Lines

/-!
# Typed programs

A program that is typed is read line by line up to the first blank one, and its lines are put together
again. Nothing is lost on the way as long as no line is blank and none ends in a carriage return, so
what is typed is treated as a file that holds the same text.
-/
namespace ScriptFrontend.Command
open Text (IsLine)

/-- A line of a program that can be typed. -/
def Typeable (l : String) : Prop := IsLine l ∧ Unicode.isBlankText l = false

/-- What is typed for a text: the text and no more, or its last line is ended, possibly with blanks
before the end of the input, or a blank line follows and then anything at all. -/
inductive TypedFor (text : String) : String → Prop where
  | unended : TypedFor text text
  | ended (blank : String) (empty : Unicode.isBlankText blank = true) (plain : '\n' ∉ blank.toList) :
    TypedFor text (text ++ "\n" ++ blank)
  | stopped (blank rest : String) (empty : Unicode.isBlankText blank = true)
    (plain : '\n' ∉ blank.toList) : TypedFor text (text ++ "\n" ++ (blank ++ "\n" ++ rest))

variable {lines : List String}

theorem Typeable.ne_empty {l : String} (h : Typeable l) : l ≠ "" := by
  rintro rfl
  exact absurd h.2 (by decide)

theorem isBlankText_dropReturn {blank : String} (empty : Unicode.isBlankText blank = true) :
    Unicode.isBlankText (String.ofList (Text.dropReturn blank.toList)) = true := by
  have part : (Text.dropReturn blank.toList).Sublist blank.toList := by
    unfold Text.dropReturn
    split
    · exact List.dropLast_sublist _
    · exact List.Sublist.refl _
  rw [Unicode.isBlankText, List.all_eq_true] at empty ⊢
  rw [String.toList_ofList]
  exact fun c mem => empty c (part.subset mem)

theorem takeWhile_typeable (h : ∀ l ∈ lines, Typeable l) (rest : List String) :
    (lines ++ rest).takeWhile (!Unicode.isBlankText ·) =
      lines ++ rest.takeWhile (!Unicode.isBlankText ·) :=
  List.takeWhile_append_of_pos fun l mem => by rw [(h l mem).2]; rfl

/-- What is read of the lines behind the program: none, for the first of them is blank. -/
theorem typedProgram_eq (h : ∀ l ∈ lines, Typeable l) (nonempty : lines ≠ []) {typed : String}
    (input : TypedFor ("\n".intercalate lines) typed) :
    typedProgram typed = "\n".intercalate lines := by
  have isLine : ∀ l ∈ lines, IsLine l := fun l mem => (h l mem).1
  suffices read : ∃ rest, Text.lines typed = lines ++ rest ∧
      rest.takeWhile (!Unicode.isBlankText ·) = [] by
    obtain ⟨rest, all, none⟩ := read
    rw [typedProgram, all, takeWhile_typeable h, none, List.append_nil]
  cases input with
  | unended =>
    refine ⟨[], ?_, rfl⟩
    rw [List.append_nil]
    exact Text.lines_intercalate fun l mem => ⟨isLine l mem, (h l mem).ne_empty⟩
  | ended blank empty plain =>
    refine ⟨_, Text.lines_intercalate_feed isLine nonempty _, ?_⟩
    rw [Text.lines, Text.pieces_plain plain, Text.linesOfPieces]
    split
    · rfl
    · rw [List.map_singleton, String.ofList_toList, List.takeWhile_cons_of_neg (by rw [empty]; decide)]
  | stopped blank rest empty plain =>
    refine ⟨_, Text.lines_intercalate_feed isLine nonempty _, ?_⟩
    have first := isBlankText_dropReturn empty
    rw [Text.lines_feed plain, List.takeWhile_cons_of_neg (by rw [first]; decide)]

theorem process_explore {o o' : Options} (same : o.explore = o'.explore) (source : String) :
    process o source = process o' source := by
  rw [process, process, same]

variable {name : String}

/-- Lines that are typed, up to a blank line, are treated as a file that holds them: only the banner
is written before all else. Neither what follows the blank line nor what else there is to read makes
a difference. -/
theorem run_typed_as_file (h : ∀ l ∈ lines, Typeable l) (nonempty : lines ≠ [])
    {typing naming : List String} (accepted : Accepted typing) (accepted' : Accepted naming)
    (explore : typing.contains "--tui" = naming.contains "--tui")
    (unnamed : typing.find? namesFile = none) (named : naming.find? namesFile = some name)
    {typed : String} (input : TypedFor ("\n".intercalate lines) typed)
    {files : String → Option String} (content : files name = some ("\n".intercalate lines))
    (otherTyped : String) (otherFiles : String → Option String) :
    let here := run typing typed otherFiles
    let there := run naming otherTyped files
    here.exitCode = there.exitCode ∧ here.errors = there.errors ∧
      here.output = banner ++ there.output ∧ here.explorer = there.explorer := by
  have here : sourceOf typing typed otherFiles = some ("\n".intercalate lines) := by
    rw [sourceOf, unnamed, typedProgram_eq h nonempty input]
  have there : sourceOf naming otherTyped files = some ("\n".intercalate lines) := by
    rw [sourceOf, named]
    exact content
  have greeted : greeting typing = banner := by rw [greeting, unnamed]; rfl
  have silent : greeting naming = "" := by rw [greeting, named]; rfl
  have same : process (optionsOf typing) ("\n".intercalate lines) =
      process (optionsOf naming) ("\n".intercalate lines) := process_explore explore _
  rw [run_of_source accepted here, run_of_source accepted' there, greeted, silent, same]
  refine ⟨rfl, rfl, ?_, rfl⟩
  dsimp only
  rw [String.empty_append]

/-- The second line has a fault. -/
def faultyLines : List String := ["x = 1;", "y = * 2;"]

/-- There is one file. -/
def faultyFile (name : String) : Option String :=
  if name = "main" then some ("\n".intercalate faultyLines) else none

theorem run_typed_as_file_faultyLines :
    (∀ l ∈ faultyLines, Typeable l) ∧
      let here := run [] ("\n".intercalate faultyLines ++ "\n" ++ ("\t" ++ "\n" ++ "z")) fun _ => none
      let there := run ["main"] "" faultyFile
      here.exitCode = there.exitCode ∧ here.errors = there.errors ∧
        here.output = banner ++ there.output ∧ here.explorer = there.explorer := by
  have typeable : ∀ l ∈ faultyLines, Typeable l := by
    simp only [Typeable, IsLine]
    decide
  have input : TypedFor ("\n".intercalate faultyLines)
      ("\n".intercalate faultyLines ++ "\n" ++ ("\t" ++ "\n" ++ "z")) :=
    .stopped "\t" "z" (by decide) (by decide)
  have accepted : Accepted ["main"] := ⟨by decide, by decide⟩
  have named : ["main"].find? namesFile = some "main" := by decide
  have content : faultyFile "main" = some ("\n".intercalate faultyLines) := rfl
  exact ⟨typeable, run_typed_as_file typeable (by decide) accepted_nil accepted (by decide) rfl named
    input content "" fun _ => none⟩

end ScriptFrontend.Command
