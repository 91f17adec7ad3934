/-
Numbers, dates and times of a TOML text.

An integer fits 64 bits with a sign. A float is read as the nearest number of
64 bits and must not be too large; one too far below zero is read as minus
infinity. A date or a time has to be one.
-/
import UpgradeBridge.Text.Digit
import UpgradeBridge.Text.Reads
import UpgradeBridge.Toml.Value

namespace UpgradeBridge.Toml

/-- A digit in base ten. -/
def isDigit (c : Char) : Bool :=
  (digit? 10 c).isSome

/-- Reads the digits after the first: single underscores may stand between digits. -/
def moreDigits (base : Nat) : Reads (List Nat)
  | [] => some ([], [])
  | '_' :: rest =>
    match rest with
    | [] => none
    | c :: rest => do
      let d ← digit? base c
      let (ds, rest) ← moreDigits base rest
      some (d :: ds, rest)
  | c :: rest =>
    match digit? base c with
    | some d => do
      let (ds, rest) ← moreDigits base rest
      some (d :: ds, rest)
    | none => some ([], c :: rest)

/-- Reads digits, at least one. -/
def digits (base : Nat) : Reads (List Nat)
  | [] => none
  | c :: rest => do
    let d ← digit? base c
    let (ds, rest) ← moreDigits base rest
    some (d :: ds, rest)

/-- Reads the digits of a whole number, which has no leading zeros. -/
def wholeDigits : Reads (List Nat)
  | '0' :: rest => some ([0], rest)
  | cs => digits 10 cs

/-- The greatest integer. -/
def maxInteger : Int := 9223372036854775807

/-- The integer, if it fits 64 bits. -/
def integer? (n : Int) : Option Value :=
  if -maxInteger - 1 ≤ n && n ≤ maxInteger then some (.integer n) else none

/-- Reads a sign, which may be missing, and tells whether it is a minus. -/
def sign : List Char → Bool × List Char
  | '+' :: rest => (false, rest)
  | '-' :: rest => (true, rest)
  | cs => (false, cs)

/-- The float of some digits with a power of ten. -/
def float? (negative : Bool) (ds : List Nat) (exponent : Int) : Option Value :=
  match Binary64.ofDecimal negative (ofDigits 10 ds) exponent with
  | .infinity false => none
  | x => some (.float x)

/-- Reads an exponent after its letter. -/
def exponent : Reads Int := fun cs => do
  let (negative, cs) := sign cs
  let (ds, rest) ← digits 10 cs
  some (if negative then -(ofDigits 10 ds : Int) else ofDigits 10 ds, rest)

/-- Reads what may follow the whole digits of a decimal number: a fraction and an exponent make it a
float. -/
def decimalTail (negative : Bool) (whole : List Nat) : Reads Value := fun cs =>
  match cs with
  | '.' :: rest => do
    let (fraction, rest) ← digits 10 rest
    let ds := whole ++ fraction
    match rest with
    | 'e' :: rest | 'E' :: rest =>
      let (e, rest) ← exponent rest
      some (← float? negative ds (e - fraction.length), rest)
    | rest => some (← float? negative ds (-fraction.length), rest)
  | 'e' :: rest | 'E' :: rest => do
    let (e, rest) ← exponent rest
    some (← float? negative whole e, rest)
  | rest => do
    let n : Int := ofDigits 10 whole
    some (← integer? (if negative then -n else n), rest)

/-- Reads a decimal number or one of the special floats. -/
def decimal : Reads Value := fun cs =>
  match sign cs with
  | (negative, 'i' :: 'n' :: 'f' :: rest) => some (.float (.infinity negative), rest)
  | (_, 'n' :: 'a' :: 'n' :: rest) => some (.float .nan, rest)
  | (negative, cs) => do
    let (whole, rest) ← wholeDigits cs
    decimalTail negative whole rest

/-- Reads an integer in another base. -/
def based (base : Nat) : Reads Value := fun cs => do
  let (ds, rest) ← digits base cs
  some (← integer? (ofDigits base ds), rest)

/-- Reads two digits whose value is within bounds. -/
def twoDigits (low high : Nat) : Reads Nat
  | a :: b :: rest => do
    let n := 10 * (← digit? 10 a) + (← digit? 10 b)
    if low ≤ n && n ≤ high then some (n, rest) else none
  | _ => none

/-- The rest after a given character. -/
def after? (c : Char) : List Char → Option (List Char)
  | [] => none
  | d :: rest => if d == c then some rest else none

/-- The rest after the fraction of a second, if there is one. -/
def skipFraction : List Char → List Char
  | '.' :: d :: rest => if isDigit d then rest.dropWhile isDigit else '.' :: d :: rest
  | cs => cs

/-- The rest after a time of day. A minute may have a 61st second. -/
def time? (cs : List Char) : Option (List Char) := do
  let (_, cs) ← twoDigits 0 23 cs
  let (_, cs) ← twoDigits 0 59 (← after? ':' cs)
  let (_, cs) ← twoDigits 0 60 (← after? ':' cs)
  some (skipFraction cs)

/-- The rest after the offset of a time, if there is one. -/
def offset? : List Char → Option (List Char)
  | 'Z' :: rest | 'z' :: rest => some rest
  | '+' :: rest | '-' :: rest => do
    let (_, cs) ← twoDigits 0 23 rest
    let (_, cs) ← twoDigits 0 59 (← after? ':' cs)
    some cs
  | cs => some cs

/-- The number of days of a month. -/
def daysOf (year month : Nat) : Nat :=
  if month = 2 then if year % 4 = 0 ∧ (year % 100 ≠ 0 ∨ year % 400 = 0) then 29 else 28
  else if month = 4 ∨ month = 6 ∨ month = 9 ∨ month = 11 then 30
  else 31

/-- The rest after the month and the day of a date. -/
def monthAndDay? (year : Nat) (cs : List Char) : Option (List Char) := do
  let (month, cs) ← twoDigits 1 12 cs
  let (_, cs) ← twoDigits 1 (daysOf year month) (← after? '-' cs)
  some cs

/-- The rest after the time that may follow a date. -/
def timeAfterDate? : List Char → Option (List Char)
  | d :: a :: b :: ':' :: rest =>
    if (d == 'T' || d == 't' || d == ' ') && isDigit a && isDigit b then do
      offset? (← time? (a :: b :: ':' :: rest))
    else some (d :: a :: b :: ':' :: rest)
  | cs => some cs

/-- Reads a number, a date or a time. Four digits before a hyphen start a date, two before a colon a
time. -/
def number : Reads Value := fun cs =>
  match cs with
  | '0' :: 'x' :: rest => based 16 rest
  | '0' :: 'o' :: rest => based 8 rest
  | '0' :: 'b' :: rest => based 2 rest
  | a :: b :: ':' :: _ =>
    if isDigit a && isDigit b then (time? cs).map fun rest => (.datetime, rest) else decimal cs
  | a :: b :: c :: d :: '-' :: rest =>
    match [a, b, c, d].mapM (digit? 10) with
    | some ds => do
      let rest ← monthAndDay? (ofDigits 10 ds) rest
      some (.datetime, ← timeAfterDate? rest)
    | none => decimal cs
  | cs => decimal cs

end UpgradeBridge.Toml
