/-!
The lexemes with one fixed spelling: keywords, operators and punctuation.
-/
namespace ScriptFrontend

inductive Symbol where
  | kwVar | kwDef | kwIf | kwElse | kwWhile | kwReturn
  | plus | minus | star | slash
  | assign
  | equal | notEqual | less | greater | lessEqual | greaterEqual
  | both | either
  | openParen | closeParen | openBrace | closeBrace | semicolon | comma
deriving DecidableEq

namespace Symbol

def spelling : Symbol → String
  | kwVar => "var"
  | kwDef => "def"
  | kwIf => "if"
  | kwElse => "else"
  | kwWhile => "while"
  | kwReturn => "return"
  | plus => "+"
  | minus => "-"
  | star => "*"
  | slash => "/"
  | assign => "="
  | equal => "=="
  | notEqual => "!="
  | less => "<"
  | greater => ">"
  | lessEqual => "<="
  | greaterEqual => ">="
  | both => "&&"
  | either => "||"
  | openParen => "("
  | closeParen => ")"
  | openBrace => "\x7b"
  | closeBrace => "\x7d"
  | semicolon => ";"
  | comma => ","

def keywords : List Symbol := [kwVar, kwDef, kwIf, kwElse, kwWhile, kwReturn]

def ofWord? (word : String) : Option Symbol :=
  keywords.find? (·.spelling = word)

/-- Symbols of two characters; each is tried before the symbols of one. -/
def ofPair? : Char → Char → Option Symbol
  | '=', '=' => some equal
  | '!', '=' => some notEqual
  | '<', '=' => some lessEqual
  | '>', '=' => some greaterEqual
  | '&', '&' => some both
  | '|', '|' => some either
  | _, _ => none

def ofChar? : Char → Option Symbol
  | '+' => some plus
  | '-' => some minus
  | '*' => some star
  | '/' => some slash
  | '=' => some assign
  | '<' => some less
  | '>' => some greater
  | '(' => some openParen
  | ')' => some closeParen
  | '{' => some openBrace
  | '}' => some closeBrace
  | ';' => some semicolon
  | ',' => some comma
  | _ => none

end Symbol
end ScriptFrontend
