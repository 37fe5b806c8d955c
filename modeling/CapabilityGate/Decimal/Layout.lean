import CapabilityGate.Decimal.Shortest

/-!
# Floating-point numbers as text

A `Layout` lists what a format decides about the text of a number beyond its digits: where the
exponent notation starts, whether a whole number keeps its `.0`, what a tie does, and the words
for the special values. `Layout.write` is the one writer for all of them.
-/
namespace CapabilityGate.Decimal

/-- What a format decides about the text of a number. -/
structure Layout where
  /-- Between two equally near decimals. -/
  tie : Tie
  /-- The positions of the decimal point, counted from the first digit, that are written without
  an exponent; `none` when no number has one. -/
  positional : Option (Int × Int)
  /-- Written after a whole number. -/
  wholeSuffix : String
  /-- Written between the digits and a nonnegative exponent. -/
  exponentPlus : String
  nan : String
  infinity : String
deriving Repr

/-- The digits with the decimal point after the first `point` of them, zeros filled in. -/
def positionalText (wholeSuffix : String) (ds : List Char) (point : Int) : List Char :=
  let n : Int := ds.length
  if n ≤ point then ds ++ List.replicate (point - n).toNat '0' ++ wholeSuffix.toList
  else if 0 < point then ds.take point.toNat ++ '.' :: ds.drop point.toNat
  else '0' :: '.' :: (List.replicate (-point).toNat '0' ++ ds)

/-- One digit, the others after a point, and the exponent of the first digit. -/
def exponentText (exponentPlus : String) (ds : List Char) (point : Int) : List Char :=
  let e := point - 1
  let mantissa :=
    match ds with
    | [] => []
    | [d] => [d]
    | d :: rest => d :: '.' :: rest
  mantissa ++ 'e' :: ((if 0 ≤ e then exponentPlus.toList else []) ++ signedDigits e)

/-- The text of a positive finite number. -/
def Layout.writeFinite (l : Layout) (m : Nat) (q : Int) : List Char :=
  let s := shortest l.tie m q
  let ds := digits s.coefficient
  let point := (ds.length : Int) + s.exponent
  match l.positional with
  | none => positionalText l.wholeSuffix ds point
  | some (first, last) =>
    if first ≤ point ∧ point ≤ last then positionalText l.wholeSuffix ds point
    else exponentText l.exponentPlus ds point

/-- **`l.write x`** — the text of a number; the sign of a zero is written. -/
def Layout.write (l : Layout) (x : Binary64) : List Char :=
  let sign (negative : Bool) : List Char := if negative then ['-'] else []
  match x.view with
  | .nan => l.nan.toList
  | .infinite negative => sign negative ++ l.infinity.toList
  | .finite negative 0 _ => sign negative ++ '0' :: l.wholeSuffix.toList
  | .finite negative m q => sign negative ++ l.writeFinite m q

/-- The plain text of a number: never an exponent, whole numbers without a point, and of two
equally near decimals the larger one. -/
def plain : Layout :=
  { tie := .up, positional := none, wholeSuffix := "", exponentPlus := "", nan := "NaN",
    infinity := "inf" }

/-- The text of a number in a JSON document: positional from `0.00001` up to below `1e16`, whole
numbers with `.0`, a sign in every exponent, and `null` for what JSON cannot write. -/
def json : Layout :=
  { tie := .even, positional := some (-4, 16), wholeSuffix := ".0", exponentPlus := "+",
    nan := "null", infinity := "null" }

/-- **`jsonText x`** — the JSON text of a number; an infinity is `null` without a sign. -/
def jsonText (x : Binary64) : List Char :=
  if x.isFinite then json.write x else json.nan.toList

end CapabilityGate.Decimal
