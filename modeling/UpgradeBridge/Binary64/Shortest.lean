/-
The shortest decimal of a floating point number: the fewest digits that read
back as the number, and of those the nearest to it.

The reals that read back as a number form an interval around it. On the grid of
decimals with a given count of digits, if any point lies in the interval then
one of the number's two neighbours does, so the counts are tried in turn.
-/
import UpgradeBridge.Binary64

namespace UpgradeBridge.Binary64

/-- A positive quotient of whole numbers. -/
structure Quotient where
  num : Nat
  den : Nat

/-- The reals that read back as a number, on either side of it. -/
structure Interval where
  low : Quotient
  value : Quotient
  high : Quotient
  /-- The ends belong to it. -/
  closed : Bool

/-- A whole number times a power of two. -/
def timesPower (n : Nat) (exponent : Int) : Quotient :=
  if exponent ≥ 0 then ⟨n <<< exponent.toNat, 1⟩ else ⟨n, 1 <<< (-exponent).toNat⟩

/-- The interval of a mantissa and an exponent. It is narrower below a power of two. -/
def interval (mantissa : Nat) (exponent : Int) : Interval :=
  let narrow := mantissa = leastMantissa ∧ exponent > minExponent
  { low := timesPower (4 * mantissa - if narrow then 1 else 2) (exponent - 2)
    value := timesPower (4 * mantissa) (exponent - 2)
    high := timesPower (4 * mantissa + 2) (exponent - 2)
    closed := mantissa % 2 = 0 }

/-- A decimal lies in the interval. -/
def Interval.contains (i : Interval) (digits : Nat) (exponent : Int) : Bool :=
  let (num, den) := if exponent ≥ 0 then (digits * tens exponent, 1) else (digits, tens (-exponent))
  if i.closed then i.low.num * den ≤ num * i.low.den && num * i.high.den ≤ i.high.num * den
  else i.low.num * den < num * i.low.den && num * i.high.den < i.high.num * den

/-- The power of ten of the first digit of a quotient. -/
def firstPlace (q : Quotient) : Int :=
  if q.num ≥ q.den then (decimalLength (q.num / q.den) : Int) - 1
  else
    let shifted := decimalLength (q.num * tens 400 / q.den)
    (shifted : Int) - 1 - 400

/-- A decimal: some digits times a power of ten. -/
structure Decimal where
  digits : Nat
  exponent : Int
  deriving DecidableEq, Repr

/-- The decimal with a count of digits that reads back, if there is one. A tie goes up. -/
def onGrid (i : Interval) (place : Int) (count : Nat) : Option Decimal :=
  let exponent := place - (count : Int) + 1
  let (num, den) := if exponent ≥ 0 then (i.value.num, i.value.den * tens exponent)
    else (i.value.num * tens (-exponent), i.value.den)
  let below := num / den
  let nearerBelow := 2 * (num % den) < den
  match i.contains below exponent && below != 0, i.contains (below + 1) exponent with
  | true, true => some ⟨if nearerBelow then below else below + 1, exponent⟩
  | true, false => some ⟨below, exponent⟩
  | false, true => some ⟨below + 1, exponent⟩
  | false, false => none

/-- The shortest decimal of a mantissa and an exponent. Seventeen digits are always enough. -/
def shortest (mantissa : Nat) (exponent : Int) : Decimal :=
  let i := interval mantissa exponent
  let place := firstPlace i.value
  ((List.range 17).findSome? fun n => onGrid i place (n + 1)).getD ⟨0, 0⟩

/-- The digits of a decimal in positional notation, with at least one place after the point. -/
def Decimal.positional (d : Decimal) : String :=
  let text := Nat.toDigits 10 d.digits
  if d.exponent ≥ 0 then String.ofList (text ++ List.replicate d.exponent.toNat '0' ++ ['.', '0'])
  else
    let places := (-d.exponent).toNat
    let padded := List.replicate (places + 1 - text.length) '0' ++ text
    let whole := padded.take (padded.length - places)
    String.ofList (whole ++ '.' :: padded.drop (padded.length - places))

/-- Trailing zeros of the digits go into the exponent, as far as places remain. -/
def Decimal.trimmed (d : Decimal) : Decimal :=
  let text := Nat.toDigits 10 d.digits
  let zeros := (text.reverse.takeWhile (· == '0')).length
  let drop := if d.exponent ≥ 0 then 0 else min zeros ((-d.exponent).toNat - 1)
  ⟨d.digits / tens drop, d.exponent + drop⟩

/-- A number in positional notation, with the fewest digits that read back. -/
def text : Binary64 → String
  | nan => "NaN"
  | infinity negative => if negative then "-inf" else "inf"
  | finite negative mantissa exponent =>
    (if negative then "-" else "") ++
      if mantissa = 0 then "0.0" else (shortest mantissa exponent).trimmed.positional

end UpgradeBridge.Binary64
