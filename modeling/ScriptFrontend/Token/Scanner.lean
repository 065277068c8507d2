import ScriptFrontend.Decimal.Reader
import ScriptFrontend.Token.Basic
import ScriptFrontend.Unicode.Alphabetic
import ScriptFrontend.Unicode.Numeric

/-!
From text to tokens. A text is cut, from left to right, into gaps and lexemes, each as long as
possible; the scan stops at the first place where neither fits. A scanner keeps its place, so a
scan can be resumed behind the text that was refused.
-/
namespace ScriptFrontend

inductive LexCause where
  | unterminatedText
  | unexpected (c : Char)
deriving DecidableEq

def LexCause.message : LexCause → String
  | unterminatedText => "Unterminated string literal"
  | unexpected c => s!"Unexpected character: '{c}'"

structure LexError where
  cause : LexCause
  location : Location
deriving DecidableEq

def LexError.render (e : LexError) : String :=
  s!"Lexer error at line {e.location.line}, column {e.location.column}: {e.cause.message}"

namespace Scanning

def isGapChar (c : Char) : Bool :=
  c = ' ' || c = '\t' || c = '\r' || c = '\n'

def isNameStart (c : Char) : Bool :=
  Unicode.isAlphabetic c || c = '_'

def isNamePart (c : Char) : Bool :=
  Unicode.isAlphabetic c || Unicode.isNumeric c || c = '_'

/-- The longest gap in front, and what follows it. A comment runs through the next line feed. -/
def splitGap (inComment : Bool) : List Char → List Char × List Char
  | [] => ([], [])
  | c :: cs =>
    if inComment || isGapChar c || c = '#' then
      let (gap, rest) := splitGap (if inComment then c ≠ '\n' else c = '#') cs
      (c :: gap, rest)
    else ([], c :: cs)

theorem splitGap_append (inComment : Bool) (cs : List Char) :
    (splitGap inComment cs).1 ++ (splitGap inComment cs).2 = cs := by
  induction cs generalizing inComment with
  | nil => rfl
  | cons c cs ih =>
    unfold splitGap
    split
    · simp [ih]
    · rfl

/-- A number: digits, then possibly a point and possibly more digits. With the count of characters
behind the first. -/
def numberAt (c : Char) (cs : List Char) : Lexeme × Nat :=
  let whole := cs.takeWhile Decimal.isDigit
  match cs.drop whole.length with
  | '.' :: more =>
    let fraction := more.takeWhile Decimal.isDigit
    (.decimal (Decimal.floatOfDigits (c :: whole) fraction), whole.length + 1 + fraction.length)
  | _ => (.integer (Decimal.natOfDigits (c :: whole)), whole.length)

/-- A text in quotes, without any escapes; it may run over several lines. -/
def textAt (cs : List Char) : Except LexCause (Lexeme × Nat) :=
  let content := cs.takeWhile (· ≠ '"')
  if content.length < cs.length then .ok (.text (String.ofList content), content.length + 1)
  else .error .unterminatedText

def wordAt (c : Char) (cs : List Char) : Lexeme × Nat :=
  let tail := cs.takeWhile isNamePart
  (.ofWord (String.ofList (c :: tail)), tail.length)

def symbolAt (c : Char) (cs : List Char) : Except LexCause (Lexeme × Nat) :=
  match cs.head?.bind (Symbol.ofPair? c) with
  | some s => .ok (.symbol s, 1)
  | none =>
    match Symbol.ofChar? c with
    | some s => .ok (.symbol s, 0)
    | none => .error (.unexpected c)

/-- The lexeme that starts with `c`, with the number of characters it takes behind `c`. -/
def lexemeAt (c : Char) (cs : List Char) : Except LexCause (Lexeme × Nat) :=
  if c = '"' then textAt cs
  else if Decimal.isDigit c then .ok (numberAt c cs)
  else if isNameStart c then .ok (wordAt c cs)
  else symbolAt c cs

def refusedBehind (cs : List Char) : LexCause → Nat
  | .unterminatedText => cs.length
  | .unexpected _ => 0

end Scanning

structure Scanner where
  rest : List Char
  location : Location

namespace Scanner
open Scanning

def ofText (s : String) : Scanner := ⟨s.toList, .start⟩

def advance (s : Scanner) (n : Nat) : Scanner :=
  ⟨s.rest.drop n, s.location.after (s.rest.take n)⟩

def skipGap (s : Scanner) : Scanner :=
  ⟨(splitGap false s.rest).2, s.location.after (splitGap false s.rest).1⟩

theorem skipGap_length_le (s : Scanner) : s.skipGap.rest.length ≤ s.rest.length := by
  have h := congrArg List.length (splitGap_append false s.rest)
  simp only [List.length_append] at h
  simp only [skipGap]
  omega

theorem advance_skipGap_length_lt {s : Scanner} {c : Char} {cs : List Char}
    (h : s.skipGap.rest = c :: cs) (n : Nat) :
    (s.skipGap.advance (n + 1)).rest.length < s.rest.length := by
  have le := s.skipGap_length_le
  rw [h, List.length_cons] at le
  simp only [advance, h, List.drop_succ_cons, List.length_drop]
  omega

/-- Scans to the end of the text or to the first place that is refused. The tokens of a text that
is accepted end with exactly one end of input. -/
def scan (s : Scanner) : Except LexError (List Token) × Scanner :=
  match h : s.skipGap.rest with
  | [] => (.ok [⟨none, s.skipGap.location⟩], s.skipGap)
  | c :: cs =>
    match lexemeAt c cs with
    | .error cause =>
      (.error ⟨cause, s.skipGap.location⟩, s.skipGap.advance (refusedBehind cs cause + 1))
    | .ok (lexeme, behind) =>
      have := advance_skipGap_length_lt h behind
      let after := scan (s.skipGap.advance (behind + 1))
      (after.1.map (⟨some lexeme, s.skipGap.location⟩ :: ·), after.2)
termination_by s.rest.length

def scans (s : Scanner) : Nat → List (Except LexError (List Token))
  | 0 => []
  | n + 1 => s.scan.1 :: scans s.scan.2 n

end Scanner

def tokenize (source : String) : Except LexError (List Token) :=
  (Scanner.ofText source).scan.1

end ScriptFrontend
