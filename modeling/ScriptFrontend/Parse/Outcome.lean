import ScriptFrontend.Diagnostic
import ScriptFrontend.Parse.Statement
import ScriptFrontend.Text.Lines
import ScriptFrontend.Token.Scanner

/-!
Reading tokens or text as a program. Places enter only here: a fault is turned into a diagnostic at
the token that it was noticed at, which the number of lexemes left unread determines.
-/
namespace ScriptFrontend.Parse

/-- The diagnostic of a fault, given all tokens, how many of them come before the end of the input,
and the lines to quote from if there are any. -/
def Fault.diagnostic (tokens : List Token) (count : Nat) (quoted : Option (List String)) (f : Fault) :
    Diagnostic :=
  let location := Token.locationAt tokens (count - f.rest.length)
  ⟨f.message, location, quoted.bind (Text.nthLine? · location.line)⟩

end ScriptFrontend.Parse
namespace ScriptFrontend

structure ParseOutcome where
  program : Program
  diagnostics : List Diagnostic

def ParseOutcome.hadErrors (o : ParseOutcome) : Bool := !o.diagnostics.isEmpty

/-- A reader over tokens that may be asked for programs again and again. The text to quote may be
replaced in between; diagnostics that exist keep their quotation. -/
structure ParserSession where
  tokens : List Token
  quoted : Option (List String)
  pending : List Lexeme
  diagnostics : List Diagnostic

namespace ParserSession

def ofTokens (tokens : List Token) : ParserSession := ⟨tokens, none, Token.lexemes tokens, []⟩

def withSource (s : ParserSession) (source : String) : ParserSession :=
  { s with quoted := some (Text.lines source) }

def ofSource (source : String) : Except LexError ParserSession :=
  (tokenize source).map fun tokens => (ofTokens tokens).withSource source

def hadErrors (s : ParserSession) : Bool := !s.diagnostics.isEmpty

def parseProgram (s : ParserSession) : Program × ParserSession :=
  let reading := Parse.program s.pending
  let found :=
    reading.faults.map (Parse.Fault.diagnostic s.tokens (Token.lexemes s.tokens).length s.quoted)
  (⟨reading.statements⟩, { s with pending := reading.rest, diagnostics := s.diagnostics ++ found })

def finish (s : ParserSession) : ParseOutcome :=
  let (program, last) := s.parseProgram
  ⟨program, last.diagnostics⟩

end ParserSession

def parseTokens (tokens : List Token) (source : Option String) : ParseOutcome :=
  match source with
  | some text => ((ParserSession.ofTokens tokens).withSource text).finish
  | none => (ParserSession.ofTokens tokens).finish

theorem parseTokens_program (tokens : List Token) (source : Option String) :
    (parseTokens tokens source).program = ⟨(Parse.program (Token.lexemes tokens)).statements⟩ := by
  cases source <;> rfl

theorem parseTokens_diagnostics (tokens : List Token) (source : Option String) :
    (parseTokens tokens source).diagnostics =
      (Parse.program (Token.lexemes tokens)).faults.map
        (Parse.Fault.diagnostic tokens (Token.lexemes tokens).length (source.map Text.lines)) := by
  cases source <;> rfl

def parse (source : String) : Except LexError ParseOutcome :=
  (ParserSession.ofSource source).map ParserSession.finish

theorem parse_of_tokenize {source : String} {tokens : List Token} (h : tokenize source = .ok tokens) :
    parse source = .ok (parseTokens tokens (some source)) := by
  rw [parse, ParserSession.ofSource, h]
  rfl

end ScriptFrontend
