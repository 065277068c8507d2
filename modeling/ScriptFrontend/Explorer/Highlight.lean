import ScriptFrontend.Explorer.Theme
import ScriptFrontend.Token.Scanner

/-!
Colours for a line of program text. The line need not be one that can be cut into lexemes: a text
without a closing quote runs to the end of the line, and any other character is left as it is.
-/
namespace ScriptFrontend.Highlight
open Scanning

def startsNumber (word : List Char) : Bool :=
  match word with
  | c :: _ => Decimal.isDigit c
  | [] => false

/-- A point continues a number and no other word. -/
def continues (word : List Char) (c : Char) : Bool :=
  isNamePart c || (c = '.' && startsNumber word)

/-- A name right before a parenthesis is taken for the name of a function. -/
def wordStyle (word : List Char) (called : Bool) : Style :=
  if (Symbol.ofWord? (String.ofList word)).isSome then Theme.keyword
  else if startsNumber word then Theme.number
  else if called then Theme.callee
  else Theme.code

def wordSpan (word : List Char) (called : Bool) : List Span :=
  if word = [] then [] else [⟨String.ofList word, wordStyle word called⟩]

def markStyle (c : Char) : Style :=
  if c = '{' || c = '}' || c = '(' || c = ')' then Theme.bracket else Theme.code

def spans (word : List Char) (cs : List Char) : List Span :=
  match cs with
  | [] => wordSpan word false
  | c :: cs =>
    if c = '#' then wordSpan word false ++ [⟨String.ofList (c :: cs), Theme.comment⟩]
    else if c = '"' then
      let content := cs.takeWhile (· ≠ '"')
      let behind := cs.drop content.length
      wordSpan word false ++
        ⟨String.ofList (c :: content ++ behind.take 1), Theme.quoted⟩ :: spans [] (behind.drop 1)
    else if continues word c then spans (word ++ [c]) cs
    else wordSpan word (c = '(') ++ ⟨String.singleton c, markStyle c⟩ :: spans [] cs
termination_by cs.length
decreasing_by
  all_goals simp only [List.length_cons, List.length_drop]
  all_goals omega

def line (text : String) : StyledLine := spans [] text.toList

end ScriptFrontend.Highlight
