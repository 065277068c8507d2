import ScriptFrontend.Command

/-!
# Arguments judged from left to right

The first argument that asks for help, is an unknown option or names a second file ends the run, with
no regard to those behind it. Where there is none, the arguments name at most one file, and the
explorer is asked for or not.
-/
namespace ScriptFrontend.Command

/-- Whatever is no option names a file. -/
def namesFile (a : String) : Bool := a.toList.head? ≠ some '-'

def AsksHelp (a : String) : Prop := a = "-h" ∨ a = "--help"

def IsUnknown (a : String) : Prop := namesFile a = false ∧ a ≠ "--tui" ∧ ¬AsksHelp a

/-- Arguments none of which ends the run. -/
structure Accepted (arguments : List String) : Prop where
  known : ∀ a ∈ arguments, namesFile a = true ∨ a = "--tui"
  alone : arguments.countP namesFile ≤ 1

/-- How an argument ends the run behind accepted ones. -/
inductive Ends (before : List String) (a : String) : Stop → Prop where
  | help (asked : AsksHelp a) : Ends before a .help
  | unknown (option : IsUnknown a) : Ends before a (.unknownOption a)
  | extra (file : namesFile a = true) (other : ∃ f ∈ before, namesFile f = true) :
    Ends before a (.unexpectedArgument a)

/-- The options that accepted arguments make. -/
def optionsOf (arguments : List String) : Options :=
  ⟨arguments.find? namesFile, arguments.contains "--tui"⟩

variable {arguments before : List String} {a : String} {stop : Stop}

/-! One argument more -/

theorem accepted_nil : Accepted [] := ⟨List.forall_mem_nil _, Nat.zero_le 1⟩

theorem judge_explore (o : Options) (as : List String) :
    judge o ("--tui" :: as) = judge { o with explore := true } as := by
  rw [judge, if_pos rfl]

theorem judge_file (file : namesFile a = true) (o : Options) (as : List String) :
    judge o (a :: as) =
      if o.file.isNone then judge { o with file := some a } as
      else .error (.unexpectedArgument a) := by
  have first : a.toList.head? ≠ some '-' := of_decide_eq_true file
  have apart {b : String} (dash : b.toList.head? = some '-') : a ≠ b :=
    fun same => first (same ▸ dash)
  have unasked : ¬(a = "-h" ∨ a = "--help") := not_or.2 ⟨apart rfl, apart rfl⟩
  rw [judge, if_neg (apart rfl), if_neg unasked, if_neg first]

/-- Arguments that no more than fill the place of one file. -/
theorem judge_known (known : ∀ a ∈ arguments, namesFile a = true ∨ a = "--tui") (o : Options)
    (alone : o.file.toList.length + arguments.countP namesFile ≤ 1) :
    judge o arguments =
      .ok ⟨o.file <|> arguments.find? namesFile, o.explore || arguments.contains "--tui"⟩ := by
  induction arguments generalizing o with
  | nil => simp [judge]
  | cons a arguments ih =>
    obtain ⟨here, others⟩ := List.forall_mem_cons.1 known
    rcases here with file | rfl
    · rw [List.countP_cons_of_pos file] at alone
      have free : o.file = none := by
        cases held : o.file with
        | none => rfl
        | some f =>
          rw [held, Option.toList_some, List.length_singleton] at alone
          omega
      have none : o.file.isNone = true := by rw [free, Option.isNone_none]
      have full : (some a).toList.length + arguments.countP namesFile ≤ 1 := by
        rw [Option.toList_some, List.length_singleton]
        omega
      have other : "--tui" ≠ a := by
        rintro rfl
        exact absurd file (by decide)
      rw [judge_file file, if_pos none, ih others { o with file := some a } full,
        List.find?_cons_of_pos file, free]
      simp [other]
    · have option : ¬namesFile "--tui" = true := by decide
      rw [List.countP_cons_of_neg option] at alone
      rw [judge_explore, ih others { o with explore := true } alone, List.find?_cons_of_neg option]
      simp

theorem readArguments_accepted (h : Accepted arguments) :
    readArguments arguments = .ok (optionsOf arguments) := by
  have alone : (none : Option String).toList.length + arguments.countP namesFile ≤ 1 := by
    simpa using h.alone
  exact judge_known h.known ⟨none, false⟩ alone

/-- The text that accepted arguments ask for, unless they name a file that does not exist. -/
def sourceOf (arguments : List String) (typed : String) (files : String → Option String) :
    Option String :=
  match arguments.find? namesFile with
  | some name => files name
  | none => some (typedProgram typed)

/-- What is written before a text is read. -/
def greeting (arguments : List String) : String :=
  if (arguments.find? namesFile).isSome then "" else banner

variable {source typed : String} {files : String → Option String}

theorem run_of_accepted (h : Accepted arguments) (typed : String) (files : String → Option String) :
    run arguments typed files =
      match arguments.find? namesFile with
      | some name => processFile (optionsOf arguments) name (files name)
      | none =>
        let report := process (optionsOf arguments) (typedProgram typed)
        { report with output := banner ++ report.output } := by
  rw [run, readArguments_accepted h]
  rfl

theorem run_of_source (h : Accepted arguments) (read : sourceOf arguments typed files = some source) :
    run arguments typed files =
      let report := process (optionsOf arguments) source
      { report with output := greeting arguments ++ report.output } := by
  rw [run_of_accepted h, greeting]
  rw [sourceOf] at read
  cases named : arguments.find? namesFile with
  | some name =>
    rw [named] at read
    have content : files name = some source := read
    simp only [content, processFile, Option.isSome_some, if_true, String.empty_append]
  | none =>
    rw [named] at read
    have content : typedProgram typed = source := Option.some.inj read
    simp only [content]
    rfl

end ScriptFrontend.Command
