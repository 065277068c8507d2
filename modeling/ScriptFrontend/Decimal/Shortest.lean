/-!
The shortest decimal that reads back as a given double. A finite double stands for `mantissa · 2^exponent`;
the reals that round to it form an interval around it, and the decimals with `n` digits form a grid.
If a point of the grid lies in the interval, so does one of the two grid points next to the value,
so two tests per grid decide how many digits are needed.
-/
namespace ScriptFrontend.Decimal

/-- A positive finite double. Below the smallest mantissa of a binade the doubles lie twice as dense. -/
structure Binary where
  mantissa : Nat
  exponent : Int
  denserBelow : Bool
deriving DecidableEq

inductive Magnitude where
  | zero
  | finite (b : Binary)
  | infinite
  | notANumber
deriving DecidableEq

def Magnitude.ofBits (bits : UInt64) : Magnitude :=
  let n := bits.toNat
  let fraction : Nat := n % Nat.pow 2 52
  let field : Nat := n / Nat.pow 2 52 % Nat.pow 2 11
  if field = 2047 then (if fraction = 0 then .infinite else .notANumber)
  else if field = 0 then
    if fraction = 0 then .zero else .finite ⟨fraction, -1074, false⟩
  else .finite ⟨Nat.pow 2 52 + fraction, (field : Int) - 1075, fraction = 0 && field ≠ 1⟩

/-- A positive rational; comparisons with decimals are made by cross multiplication. -/
structure Ratio where
  num : Nat
  den : Nat

def Ratio.scaled (n : Nat) (e : Int) : Ratio :=
  match e with
  | .ofNat k => ⟨n * Nat.pow 2 k, 1⟩
  | .negSucc k => ⟨n, Nat.pow 2 (k + 1)⟩

def Ratio.shift (r : Ratio) (e : Int) : Ratio :=
  match e with
  | .ofNat k => ⟨r.num, r.den * Nat.pow 10 k⟩
  | .negSucc k => ⟨r.num * Nat.pow 10 (k + 1), r.den⟩

def Binary.value (b : Binary) : Ratio := .scaled (4 * b.mantissa) (b.exponent - 2)

/-- The ends of the interval of reals that round to the double: half way to its neighbours. -/
def Binary.lower (b : Binary) : Ratio :=
  .scaled (4 * b.mantissa - (if b.denserBelow then 1 else 2)) (b.exponent - 2)

def Binary.upper (b : Binary) : Ratio := .scaled (4 * b.mantissa + 2) (b.exponent - 2)

/-- Ties go to the even mantissa, so the ends belong to the interval of an even one. -/
def Binary.holds (b : Binary) (grid : Int) (d : Nat) : Bool :=
  let lo := b.lower.shift grid
  let hi := b.upper.shift grid
  if b.mantissa % 2 = 0 then lo.num ≤ d * lo.den && d * hi.den ≤ hi.num
  else lo.num < d * lo.den && d * hi.den < hi.num

def digitsOf (n : Nat) : List Char := Nat.toDigits 10 n

/-- The power of ten right above the value: `10^(p-1) ≤ value < 10^p`. -/
def Binary.magnitude (b : Binary) : Int :=
  let v := b.value
  if v.den ≤ v.num then (digitsOf (v.num / v.den)).length
  else 1 - ((digitsOf (v.den / v.num)).length : Int)

def Binary.floorOn (b : Binary) (grid : Int) : Nat :=
  (b.value.shift grid).num / (b.value.shift grid).den

/-- The grid point next to the value that reads back and is nearer to it; of two equally near ones
the larger. -/
def Binary.onGrid? (b : Binary) (grid : Int) : Option Nat :=
  let v := b.value.shift grid
  let d := b.floorOn grid
  let rest := v.num % v.den
  match b.holds grid d, b.holds grid (d + 1) with
  | true, true => some (if 2 * rest < v.den then d else d + 1)
  | true, false => some d
  | false, true => some (d + 1)
  | false, false => none

/-- A decimal `0.d₁d₂… · 10^point`; the digits neither start nor end with a zero. -/
structure Digits where
  digits : List Char
  point : Int
deriving DecidableEq

def Digits.ofGrid (grid : Int) (d : Nat) : Digits :=
  let all := digitsOf d
  ⟨(all.reverse.dropWhile (· = '0')).reverse, grid + all.length⟩

/-- The first grid with a hit, among those with `n`, `n + 1`, … digits, or else the last one. -/
def Binary.firstGrid (b : Binary) (n : Nat) : Nat → Digits
  | 0 => .ofGrid (b.magnitude - n) (b.floorOn (b.magnitude - n))
  | more + 1 =>
    match b.onGrid? (b.magnitude - n) with
    | some d => .ofGrid (b.magnitude - n) d
    | none => b.firstGrid (n + 1) more

def Binary.shortest (b : Binary) : Digits := b.firstGrid 1 17

end ScriptFrontend.Decimal
