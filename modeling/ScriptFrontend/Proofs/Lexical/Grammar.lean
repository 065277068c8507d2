import ScriptFrontend.Token.Scanner

/-!
# The lexical grammar

How lexemes are spelled, what may stand between them, and the division of a text into gaps and
lexemes, each as long as the text allows. A division stops where no lexeme fits; it covers the text
if it stops at the end.

```text
text     ::= '"' (any character but '"')* '"'
integer  ::= digit+
decimal  ::= digit+ '.' digit*
name     ::= (letter | '_') (letter | number | '_')*       unless it is a keyword
symbol   ::= keyword | "==" | "!=" | "<=" | ">=" | "&&" | "||" | "+" | ... | ","
gap      ::= (' ' | '\t' | '\r' | '\n' | '#' (any character but '\n')* ('\n' | end of text))*
```
-/
namespace ScriptFrontend
namespace Scanning

inductive Spells : List Char → Lexeme → Prop where
  | text {content : List Char} :
      '"' ∉ content → Spells ('"' :: (content ++ ['"'])) (.text (String.ofList content))
  | integer {digits : List Char} :
      digits ≠ [] → (∀ c ∈ digits, Decimal.isDigit c = true) →
      Spells digits (.integer (Decimal.natOfDigits digits))
  | decimal {whole fraction : List Char} :
      whole ≠ [] → (∀ c ∈ whole, Decimal.isDigit c = true) →
      (∀ c ∈ fraction, Decimal.isDigit c = true) →
      Spells (whole ++ '.' :: fraction) (.decimal (Decimal.floatOfDigits whole fraction))
  | name {c : Char} {tail : List Char} :
      isNameStart c = true → (∀ d ∈ tail, isNamePart d = true) →
      (∀ k ∈ Symbol.keywords, k.spelling.toList ≠ c :: tail) →
      Spells (c :: tail) (.name (String.ofList (c :: tail)))
  | symbol (s : Symbol) : Spells s.spelling.toList (.symbol s)

/-- Gaps, given what stands behind them: only there may a comment lack its line feed. -/
inductive GapBefore (rest : List Char) : List Char → Prop where
  | nil : GapBefore rest []
  | blank {c : Char} {gap : List Char} :
      c ∈ [' ', '\t', '\r', '\n'] → GapBefore rest gap → GapBefore rest (c :: gap)
  | comment {body gap : List Char} :
      '\n' ∉ body → GapBefore rest gap → GapBefore rest ('#' :: (body ++ '\n' :: gap))
  | lastComment {body : List Char} : '\n' ∉ body → rest = [] → GapBefore rest ('#' :: body)

/-- No longer piece in front of the text is a gap. -/
def LongestGap (text gap : List Char) : Prop :=
  (∃ rest, text = gap ++ rest ∧ GapBefore rest gap) ∧
    ∀ other rest, text = other ++ rest → GapBefore rest other → other.length ≤ gap.length

/-- No longer piece in front of the text spells a lexeme. -/
def LongestLexeme (text word : List Char) (l : Lexeme) : Prop :=
  word <+: text ∧ Spells word l ∧
    ∀ other k, other <+: text → Spells other k → other.length ≤ word.length

/-- A lexeme with the gap in front of it. -/
structure Cut where
  gap : List Char
  word : List Char
  lexeme : Lexeme

/-- The cuts of a text, the gap behind them, and what is left where no lexeme fits. -/
structure Division where
  cuts : List Cut
  gap : List Char
  left : List Char

inductive Divides : List Char → Division → Prop where
  | stop {text gap left : List Char} :
      text = gap ++ left → LongestGap text gap → (∀ word l, word <+: left → ¬Spells word l) →
      Divides text ⟨[], gap, left⟩
  | cut {text gap word rest : List Char} {l : Lexeme} {d : Division} :
      text = gap ++ (word ++ rest) → LongestGap text gap → LongestLexeme (word ++ rest) word l →
      Divides rest d → Divides text ⟨⟨gap, word, l⟩ :: d.cuts, d.gap, d.left⟩

/-- The part of the text in front of what is left. -/
def Division.covered (d : Division) : List Char :=
  d.cuts.flatMap (fun c => c.gap ++ c.word) ++ d.gap

end Scanning

/-- The place behind a text: one line for each line feed, and a column for each character behind the last. -/
def Location.behind (text : List Char) : Location :=
  ⟨1 + text.count '\n', 1 + (text.reverse.takeWhile (· ≠ '\n')).length⟩

/-- The tokens of cuts behind a piece of text: each lexeme at the place behind its gap. -/
def Scanning.tokensOf (front : List Char) : List Scanning.Cut → List Token
  | [] => []
  | c :: cuts =>
    ⟨some c.lexeme, .behind (front ++ c.gap)⟩ :: tokensOf (front ++ c.gap ++ c.word) cuts

end ScriptFrontend
