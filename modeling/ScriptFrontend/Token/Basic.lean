import ScriptFrontend.Location
import ScriptFrontend.Text.Columns
import ScriptFrontend.Token.Lexeme

/-!
Tokens: kinds with the place of their first character.
-/
namespace ScriptFrontend

structure Token where
  kind : TokenKind
  location : Location

namespace Token

/-- Line and column stand in columns of three characters before the kind. -/
def render (t : Token) : String :=
  Text.alignRight 3 (toString t.location.line) ++ ":" ++
    Text.alignLeft 3 (toString t.location.column) ++ " " ++ TokenKind.describe t.kind

/-- The lexemes up to the first end of the input. -/
def lexemes : List Token → List Lexeme
  | [] => []
  | t :: ts =>
    match t.kind with
    | some l => l :: lexemes ts
    | none => []

/-- The place of the token with the given index. Behind the tokens lies the place of the last one. -/
def locationAt (tokens : List Token) (i : Nat) : Location :=
  match tokens[i]? with
  | some t => t.location
  | none => (tokens.getLast?.map (·.location)).getD .start

end Token
end ScriptFrontend
