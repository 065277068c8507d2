import ScriptFrontend.Command
import ScriptFrontend.Explorer.Frame

/-!
The program: reads its file or standard input, writes the report, and shows the explorer on request.
The explorer is driven by lines: a line names a key or holds the characters that are pressed.
-/
namespace ScriptFrontend.Console

/-- What is typed, up to and including the first blank line. -/
partial def readTyped (input : IO.FS.Stream) (text : String) : IO String := do
  let line ← input.getLine
  if Unicode.isBlankText line then return text ++ line
  readTyped input (text ++ line)

def readFile? (name : String) : IO (Option String) := do
  try
    return some (← IO.FS.readFile name)
  catch _ => return none

def eventsOfLine (line : String) : List Event :=
  match line with
  | "tab" => [.press .tab]
  | "backtab" => [.press .backTab]
  | "up" => [.press .up]
  | "down" => [.press .down]
  | "pageup" => [.press .pageUp]
  | "pagedown" => [.press .pageDown]
  | "esc" => [.press .escape]
  | _ => line.toList.map fun c => .press (.character c)

partial def explore (input : IO.FS.Stream) (width height : Nat) (e : Explorer) : IO Unit := do
  if e.finished then return
  let shown := e.settle width height
  IO.print (Command.unlines (shown.frame width height).plainRows)
  let line ← input.getLine
  if line.isEmpty then return
  let events := eventsOfLine (String.ofList (line.toList.filter (· ≠ '\n')))
  explore input width height (((e.run width height events).getLast?).getD e)

def deliver (report : Command.Report) : IO UInt32 := do
  IO.print report.output
  IO.eprint report.errors
  if let some e := report.explorer then explore (← IO.getStdin) 100 30 e
  return report.exitCode.toUInt32

end ScriptFrontend.Console

open ScriptFrontend in
def main (arguments : List String) : IO UInt32 := do
  match Command.readArguments arguments with
  | .error stop => Console.deliver stop.report
  | .ok options =>
    match options.file with
    | some name => Console.deliver (Command.processFile options name (← Console.readFile? name))
    | none =>
      IO.print Command.banner
      let typed ← Console.readTyped (← IO.getStdin) ""
      Console.deliver (Command.process options (Command.typedProgram typed))
