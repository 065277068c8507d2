/-!
Numbers read from text. Digits are the ASCII ones; a decimal is rounded to the nearest double.
-/
namespace ScriptFrontend.Decimal

def isDigit (c : Char) : Bool := '0' ≤ c && c ≤ '9'

def digitValue (c : Char) : Nat := c.toNat - '0'.toNat

def natOfDigits (ds : List Char) : Nat :=
  ds.foldl (fun n c => 10 * n + digitValue c) 0

/-- The double nearest to `whole.fraction`; too large a value becomes infinite. -/
def floatOfDigits (whole fraction : List Char) : Float :=
  Float.ofScientific (natOfDigits (whole ++ fraction)) true fraction.length

/-- The double nearest to `n · 10^e`. Powers that no double reaches are cut short before they are computed. -/
def floatOfScaled (digits : List Char) (e : Int) : Float :=
  let n := natOfDigits digits
  if n = 0 then 0.0
  else
    let top := e + (Nat.toDigits 10 n).length
    if 400 < top then 1.0 / 0.0
    else if top < -400 then 0.0
    else
      match e with
      | .ofNat k => Float.ofScientific n false k
      | .negSucc k => Float.ofScientific n true (k + 1)

def signed {α : Type} (negate : α → α) (read : List Char → Option α) : List Char → Option α
  | '+' :: cs => read cs
  | '-' :: cs => (read cs).map negate
  | cs => read cs

def natural? (cs : List Char) : Option Nat :=
  if cs ≠ [] ∧ cs.all isDigit then some (natOfDigits cs) else none

def readInt? (s : String) : Option Int :=
  signed (- ·) (fun cs => (natural? cs).map Int.ofNat) s.toList

/-- Digits, an optional point with digits and an optional exponent; some digit stands beside the point. -/
def unsignedFloat? (cs : List Char) : Option Float :=
  let word := cs.map Char.toLower
  if word = "inf".toList ∨ word = "infinity".toList then some (1.0 / 0.0)
  else if word = "nan".toList then some (0.0 / 0.0)
  else
    let whole := cs.takeWhile isDigit
    let (fraction, rest) :=
      match cs.dropWhile isDigit with
      | '.' :: more => (more.takeWhile isDigit, more.dropWhile isDigit)
      | more => ([], more)
    if whole = [] ∧ fraction = [] then none
    else
      match rest with
      | [] => some (floatOfScaled (whole ++ fraction) (-fraction.length))
      | c :: power =>
        if c.toLower = 'e' then
          (readInt? (String.ofList power)).map fun e => floatOfScaled (whole ++ fraction) (e - fraction.length)
        else none

def readFloat? (s : String) : Option Float :=
  signed (- ·) unsignedFloat? s.toList

end ScriptFrontend.Decimal
