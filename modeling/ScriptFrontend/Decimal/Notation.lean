import ScriptFrontend.Decimal.Shortest

/-!
Doubles as text. Zero and magnitudes from `10^-4` up to, not including, `10^16` are written
positionally with at least one digit behind the point, others with a power of ten.
-/
namespace ScriptFrontend.Decimal

def zeros (n : Nat) : List Char := List.replicate n '0'

def Digits.positional (d : Digits) : List Char :=
  let n := d.digits.length
  if d.point ≤ 0 then '0' :: '.' :: (zeros (-d.point).toNat ++ d.digits)
  else if n ≤ d.point.toNat then d.digits ++ zeros (d.point.toNat - n) ++ ['.', '0']
  else d.digits.take d.point.toNat ++ '.' :: d.digits.drop d.point.toNat

/-- One digit before the point, none behind it if there are no more; a positive power has no sign. -/
def Digits.scientific (d : Digits) : List Char :=
  let lead := d.digits.take 1
  let tail := d.digits.drop 1
  lead ++ (if tail = [] then [] else '.' :: tail) ++ 'e' :: (toString (d.point - 1)).toList

def Digits.text (d : Digits) : List Char :=
  if -4 ≤ d.point - 1 ∧ d.point - 1 < 16 then d.positional else d.scientific

/-- A value that is not a number is written without its sign. -/
def textOfBits (bits : UInt64) : String :=
  let sign := if bits.toNat / Nat.pow 2 63 = 1 then "-" else ""
  match Magnitude.ofBits bits with
  | .zero => sign ++ "0.0"
  | .finite b => sign ++ String.ofList b.shortest.text
  | .infinite => sign ++ "inf"
  | .notANumber => "NaN"

def text (x : Float) : String := textOfBits x.toBits

end ScriptFrontend.Decimal
