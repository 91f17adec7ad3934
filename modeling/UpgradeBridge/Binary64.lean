/-
Floating point numbers of 64 bits, exactly: a finite one is a whole number
times a power of two. A decimal is rounded to the nearest of them, and to the
one with an even mantissa of two that are equally near.
-/
namespace UpgradeBridge

/-- A floating point number of 64 bits. -/
inductive Binary64
  | nan
  | infinity (negative : Bool)
  /-- The mantissa times two to the exponent. The mantissa has 53 bits, or the exponent is the least
  there is. -/
  | finite (negative : Bool) (mantissa : Nat) (exponent : Int)
  deriving DecidableEq, Repr

namespace Binary64

/-- The least exponent. -/
def minExponent : Int := -1074

/-- The greatest exponent. -/
def maxExponent : Int := 971

/-- The least mantissa of 53 bits. -/
def leastMantissa : Nat := 0x10000000000000

/-- A power of ten; one for a negative exponent. -/
def tens (exponent : Int) : Nat :=
  Nat.pow 10 exponent.toNat

/-- The nearest whole number to a quotient, and the even one of two. -/
def roundQuotient (num den : Nat) : Nat :=
  let q := num / den
  let r := num % den
  if 2 * r < den then q
  else if 2 * r > den then q + 1
  else if q % 2 = 0 then q else q + 1

/-- A quotient divided by a power of two, as a quotient. -/
def scale (num den : Nat) (exponent : Int) : Nat × Nat :=
  if exponent ≥ 0 then (num, den <<< exponent.toNat) else (num <<< (-exponent).toNat, den)

/-- The number nearest to a positive quotient. -/
def ofQuotient (negative : Bool) (num den : Nat) : Binary64 :=
  let guess : Int := (num.log2 : Int) - den.log2 - 52
  let (n, d) := scale num den guess
  let exponent := max minExponent (if n < d * leastMantissa then guess - 1 else guess)
  let (n, d) := scale num den exponent
  let mantissa := roundQuotient n d
  let (mantissa, exponent) :=
    if mantissa = 2 * leastMantissa then (leastMantissa, exponent + 1) else (mantissa, exponent)
  if exponent > maxExponent then .infinity negative else .finite negative mantissa exponent

/-- How many decimal digits a number has. -/
def decimalLength (n : Nat) : Nat :=
  (Nat.toDigits 10 n).length

/-- The number nearest to a decimal: some digits times a power of ten. A decimal far out of range is
decided by its magnitude alone. -/
def ofDecimal (negative : Bool) (digits : Nat) (exponent : Int) : Binary64 :=
  if digits = 0 then .finite negative 0 minExponent
  else
    let magnitude := (decimalLength digits : Int) + exponent
    if magnitude > 310 then .infinity negative
    else if magnitude < -330 then .finite negative 0 minExponent
    else if exponent ≥ 0 then ofQuotient negative (digits * tens exponent) 1
    else ofQuotient negative digits (tens (-exponent))

end Binary64

end UpgradeBridge
