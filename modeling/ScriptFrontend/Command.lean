import ScriptFrontend.Explorer.State
import ScriptFrontend.Unicode.Blank

/-!
The command line. Arguments are judged from left to right before anything is read. Without a file the
program is typed, line by line, up to the first blank line. The exit code is one as soon as anything
is wrong with the arguments or the program.
-/
namespace ScriptFrontend.Command

def programName : String := "minipy"

def listedTokens : Nat := 20

structure Options where
  file : Option String
  explore : Bool
deriving DecidableEq

inductive Stop where
  | help
  | unknownOption (argument : String)
  | unexpectedArgument (argument : String)
  | noFile (name : String)
deriving DecidableEq

structure Report where
  exitCode : Nat
  output : String
  errors : String
  explorer : Option Explorer

def unlines (lines : List String) : String := String.join (lines.map (· ++ "\n"))

def usage : String :=
  unlines [s!"Usage: {programName} [--tui] [FILE]", "",
    "Without FILE, source is read from stdin until an empty line.",
    "  --tui    open the source/AST/diagnostics explorer after parsing"]

def Stop.message : Stop → String
  | help => ""
  | unknownOption a => s!"Error: Unknown option '{a}'\n"
  | unexpectedArgument a => s!"Error: Unexpected argument '{a}'\n"
  | noFile name => s!"Error: File '{name}' not found\n"

/-- Only a request for help is no failure. -/
def Stop.report (s : Stop) : Report :=
  ⟨if s = .help then 0 else 1, "", s.message ++ usage, none⟩

/-- Judges arguments from left to right; the first that ends the run decides. -/
def judge (o : Options) : List String → Except Stop Options
  | [] => .ok o
  | a :: as =>
    if a = "--tui" then judge { o with explore := true } as
    else if a = "-h" ∨ a = "--help" then .error .help
    else if a.toList.head? = some '-' then .error (.unknownOption a)
    else if o.file.isNone then judge { o with file := some a } as
    else .error (.unexpectedArgument a)

def readArguments (arguments : List String) : Except Stop Options := judge ⟨none, false⟩ arguments

def banner : String :=
  unlines ["minipy parser - interactive mode", "Enter your code (end with empty line):",
    Text.rule '-' 40]

/-- The program in what was typed: the lines before the first blank one. -/
def typedProgram (input : String) : String :=
  "\n".intercalate ((Text.lines input).takeWhile (!Unicode.isBlankText ·))

def heading : String :=
  unlines ["", Text.rule '=' 60, "PARSING RESULT:", Text.rule '=' 60]

def tokenListing (tokens : List Token) : String :=
  unlines ("" :: s!"Tokens generated: {tokens.length}" ::
    if tokens.length ≤ listedTokens then tokens.map (fun t => "  " ++ t.render) else [])

def closing : String := unlines ["", Text.rule '=' 60]

def summary (p : Program) : String :=
  unlines ["", "Parsing successful", s!"AST contains {p.statements.length} statements",
    s!"AST contains {(Census.ofProgram p).total} nodes", "", Text.rule '-' 40, "AST STRUCTURE:",
    Text.rule '-' 40] ++ p.print 0

def faultReport (ds : List Diagnostic) : String :=
  unlines (ds.map Diagnostic.render ++ ["", s!"Parsing completed with {ds.length} error(s)"])

def process (o : Options) (source : String) : Report :=
  if Unicode.isBlankText source then ⟨0, unlines ["No input provided"], "", none⟩
  else
    match tokenize source with
    | .error e => ⟨1, heading, unlines [e.render], none⟩
    | .ok tokens =>
      let outcome := parseTokens tokens (some source)
      let exitCode := if outcome.hadErrors then 1 else 0
      let opening := heading ++ tokenListing tokens
      if o.explore then ⟨exitCode, opening, "", some (.start source outcome)⟩
      else if outcome.hadErrors then ⟨exitCode, opening ++ closing, faultReport outcome.diagnostics, none⟩
      else ⟨exitCode, opening ++ summary outcome.program ++ closing, "", none⟩

def processFile (o : Options) (name : String) (content : Option String) : Report :=
  match content with
  | some source => process o source
  | none => (Stop.noFile name).report

def run (arguments : List String) (typed : String) (files : String → Option String) : Report :=
  match readArguments arguments with
  | .error stop => stop.report
  | .ok o =>
    match o.file with
    | some name => processFile o name (files name)
    | none =>
      let report := process o (typedProgram typed)
      { report with output := banner ++ report.output }

end ScriptFrontend.Command
