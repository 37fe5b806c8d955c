import CapabilityGate.Binary64
import CapabilityGate.Decimal.Digits
import CapabilityGate.Toml.Text

/-!
# Numbers and dates in TOML documents

Integers are read with their values; they have to fit 64 bits with a sign. Of numbers with a point
or an exponent it matters that they are not rounded to positive infinity, and of dates and times
only the form matters: the functions for them return the text after one. Underscores may stand
between two digits.
-/
namespace CapabilityGate.Toml

/-- The text after a sign, and whether it is a minus. -/
def sign : List Char → Bool × List Char
  | '-' :: cs => (true, cs)
  | '+' :: cs => (false, cs)
  | cs => (false, cs)

/-- A run of digits of some kind with single underscores between them. -/
def digitsOf (isDigit : Char → Bool) : List Char → Option (List Char × List Char)
  | [] => none
  | c :: cs =>
    if !isDigit c then none
    else
      match cs with
      | '_' :: rest => (digitsOf isDigit rest).map fun (ds, rest) => (c :: ds, rest)
      | d :: rest =>
        if isDigit d then (digitsOf isDigit (d :: rest)).map fun (ds, rest) => (c :: ds, rest)
        else some ([c], d :: rest)
      | [] => some ([c], [])

/-- The digits of a decimal integer: no zero in front of others. -/
def wholeDigits : List Char → Option (List Char × List Char)
  | '0' :: cs => some (['0'], cs)
  | cs => digitsOf Decimal.isDigit cs

/-- An integer of 64 bits with a sign. -/
def fit (n : Int) : Option Int := 
  if Int64.minValue.toInt ≤ n ∧ n ≤ Int64.maxValue.toInt then some n else none

/-- An integer in base 16, 8 or 2, after its first two characters. -/
def basedInteger? (base : Nat) (cs : List Char) : Option (Int × List Char) := do
  let isDigit (c : Char) : Bool := (hexValue? c).any (· < base)
  let (ds, rest) ← digitsOf isDigit cs
  let n := ds.foldl (fun n c => base * n + (hexValue? c).getD 0) 0
  return (← fit n, rest)

/-- An integer. -/
def integer? (cs : List Char) : Option (Int × List Char) :=
  match cs with
  | '0' :: 'x' :: cs => basedInteger? 16 cs
  | '0' :: 'o' :: cs => basedInteger? 8 cs
  | '0' :: 'b' :: cs => basedInteger? 2 cs
  | cs => do
    let (negative, cs) := sign cs
    let (ds, rest) ← wholeDigits cs
    let n : Int := Decimal.value ds
    return (← fit (if negative then -n else n), rest)

/-- The exponent at the start of a text: its sign, true for minus, and its digits. -/
def exponent? : List Char → Option ((Bool × List Char) × List Char)
  | [] => none
  | c :: cs =>
    if c = 'e' ∨ c = 'E' then
      let (negative, cs) := sign cs
      (digitsOf Decimal.isDigit cs).map fun (ds, rest) => ((negative, ds), rest)
    else none

/-- A number with a point or an exponent, less its sign. -/
structure Fractional where
  whole : List Char
  /-- The digits after the point. -/
  fraction : List Char
  /-- The sign of the exponent, true for minus, and its digits. -/
  exponent : Bool × List Char
deriving DecidableEq, Repr

namespace Fractional

/-- The number is `significand · 10^power`. -/
def significand (x : Fractional) : Nat := Decimal.value (x.whole ++ x.fraction)

/-- The power of ten that the significand is multiplied by. -/
def power (x : Fractional) : Int :=
  let e : Int := Decimal.value x.exponent.2
  (if x.exponent.1 then -e else e) - x.fraction.length

/-- The powers beyond which ten to that power, times a digit, is infinite. -/
def greatestPower : Int := 400

/-- **`x.isInfinite`** — is the nearest binary64 number infinite. A number of `k` digits is below
`10^k`, so one that is small by its digits and power alone is not computed. -/
def isInfinite (x : Fractional) : Bool :=
  let digits : Int := x.whole.length + x.fraction.length
  if x.significand = 0 ∨ digits + x.power ≤ 0 then false
  else if greatestPower < x.power then true
  else
    let scaled := x.significand * Decimal.tenTo x.power.toNat
    !(Binary64.ofRatio false scaled (Decimal.tenTo (-x.power).toNat)).isFinite

end Fractional

/-- A number with a point or an exponent at the start of a text without a sign. -/
def fractional? (cs : List Char) : Option (Fractional × List Char) := do
  let (whole, cs) ← wholeDigits cs
  match cs with
  | '.' :: cs =>
    let (fraction, cs) ← digitsOf Decimal.isDigit cs
    match exponent? cs with
    | some (e, cs) => return (⟨whole, fraction, e⟩, cs)
    | none => return (⟨whole, fraction, (false, [])⟩, cs)
  | cs =>
    let (e, cs) ← exponent? cs
    return (⟨whole, [], e⟩, cs)

/-- A number that is not an integer, and whether it would be rounded to positive infinity. -/
def float? (cs : List Char) : Option (Bool × List Char) :=
  let (negative, unsigned) := sign cs
  match unsigned with
  | 'i' :: 'n' :: 'f' :: rest => some (false, rest)
  | 'n' :: 'a' :: 'n' :: rest => some (false, rest)
  | _ => (fractional? unsigned).map fun (x, rest) => (!negative && x.isInfinite, rest)

/-! ## Dates and times -/

/-- A number of exactly `count` digits. -/
def fixed? (count : Nat) (cs : List Char) : Option (Nat × List Char) :=
  let ds := cs.take count
  if ds.length = count ∧ ds.all Decimal.isDigit = true then some (Decimal.value ds, cs.drop count)
  else none

/-- A number of two digits between two bounds, after the given character. -/
def twoDigits? (before : Char) (least greatest : Nat) : List Char → Option (Nat × List Char)
  | [] => none
  | c :: cs =>
    if c ≠ before then none
    else (fixed? 2 cs).filter fun r => least ≤ r.1 && r.1 ≤ greatest

/-- The number of days of a month. -/
def daysOf (year month : Nat) : Nat :=
  if month = 2 then
    if year % 4 = 0 ∧ (year % 100 ≠ 0 ∨ year % 400 = 0) then 29 else 28
  else if month ∈ [4, 6, 9, 11] then 30
  else 31

/-- The text after a date. -/
def afterDate? (cs : List Char) : Option (List Char) := do
  let (year, cs) ← fixed? 4 cs
  let (month, cs) ← twoDigits? '-' 1 12 cs
  let (day, cs) ← twoDigits? '-' 1 31 cs
  if day ≤ daysOf year month then some cs else none

/-- The text after a time of day. -/
def afterTime? (cs : List Char) : Option (List Char) := do
  let (_, cs) ← (fixed? 2 cs).filter fun r => r.1 ≤ 23
  let (_, cs) ← twoDigits? ':' 0 59 cs
  let (_, cs) ← twoDigits? ':' 0 60 cs
  match cs with
  | '.' :: c :: rest =>
    if Decimal.isDigit c then some (rest.dropWhile Decimal.isDigit) else none
  | cs => some cs

/-- The text after the distance from Greenwich, if there is one. -/
def afterOffset? : List Char → Option (List Char)
  | [] => some []
  | c :: cs =>
    if c = 'Z' ∨ c = 'z' then some cs
    else if c = '+' ∨ c = '-' then do
      let (_, cs) ← twoDigits? c 0 23 (c :: cs)
      let (_, cs) ← twoDigits? ':' 0 59 cs
      return cs
    else some (c :: cs)

/-- The text after a date, a time of day, or both. -/
def afterDateTime? (cs : List Char) : Option (List Char) :=
  match afterDate? cs with
  | none => afterTime? cs
  | some [] => some []
  | some (c :: rest) =>
    if c = 'T' ∨ c = 't' then (afterTime? rest).bind afterOffset?
    else if c = ' ' then
      match afterTime? rest with
      | some rest => afterOffset? rest
      | none => some (c :: rest)
    else some (c :: rest)

end CapabilityGate.Toml
