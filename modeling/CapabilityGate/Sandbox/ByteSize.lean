import CapabilityGate.Decimal.Digits
import CapabilityGate.Text.Case

/-!
# Byte sizes

An amount of memory in bytes, below 2^64. Its text is a number with a binary unit, the largest one
that leaves a whole number. `ByteSize.parse` also reads the short and the decimal-looking names of
the units, in any letter case, and never wraps: a number or a product that does not fit is refused.
-/
namespace CapabilityGate

/-- An amount of memory. -/
structure ByteSize where
  bytes : UInt64
deriving DecidableEq, Repr

namespace ByteSize

/-- Bytes in a KiB. -/
def kib : Nat := 1024

/-- Bytes in a MiB. -/
def mib : Nat := 1024 * kib

/-- Bytes in a GiB. -/
def gib : Nat := 1024 * mib

/-- The amount of `n` units of `unit` bytes; amounts from 2^64 bytes on wrap. -/
def ofUnits (n unit : Nat) : ByteSize := ⟨UInt64.ofNat (n * unit)⟩

/-- Why a text is no byte size; every cause holds the text without surrounding blanks. -/
inductive Error where
  /-- It does not start with a number, or the number is too large. -/
  | number (text : String)
  /-- The word after the number names no unit. -/
  | unit (word text : String)
  /-- The product of number and unit is too large. -/
  | overflow (text : String)
deriving DecidableEq, Repr

/-- The explanation shown for a refused text. -/
def Error.message : Error → String
  | number text => s!"invalid byte size '{text}'"
  | unit word text => s!"unknown byte size unit '{word}' in '{text}'"
  | overflow text => s!"byte size '{text}' overflows"

/-- The number of bytes in the unit with this name in small letters. -/
def unitOf? (word : String) : Option Nat :=
  if word ∈ ["", "b"] then some 1
  else if word ∈ ["k", "kb", "kib"] then some kib
  else if word ∈ ["m", "mb", "mib"] then some mib
  else if word ∈ ["g", "gb", "gib"] then some gib
  else none

/-- **`parse raw`** — a number and a unit, blanks around and between them aside. -/
def parse (raw : String) : Except Error ByteSize :=
  let text := Text.trimChars raw.toList
  let number := text.takeWhile Decimal.isDigit
  let word := String.ofList (Text.asciiLower (Text.trimChars (text.dropWhile Decimal.isDigit)))
  let n := Decimal.value number
  if number = [] ∨ UInt64.size ≤ n then .error (.number (String.ofList text))
  else
    match unitOf? word with
    | none => .error (.unit word (String.ofList text))
    | some unit =>
      if UInt64.size ≤ n * unit then .error (.overflow (String.ofList text))
      else .ok (ofUnits n unit)

/-- The text of a size: a whole number of the largest unit that allows one. -/
def display (s : ByteSize) : String :=
  let n := s.bytes.toNat
  if gib ≤ n ∧ n % gib = 0 then Decimal.natText (n / gib) ++ "GiB"
  else if mib ≤ n ∧ n % mib = 0 then Decimal.natText (n / mib) ++ "MiB"
  else if kib ≤ n ∧ n % kib = 0 then Decimal.natText (n / kib) ++ "KiB"
  else Decimal.natText n ++ "B"

end ByteSize

end CapabilityGate
