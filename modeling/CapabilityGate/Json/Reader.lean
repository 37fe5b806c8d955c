import CapabilityGate.Json.Numeral

/-!
# Reading JSON documents

A recursive reader over the characters of a text. Every function takes the text that is left and
returns what it read with the text after it; `parse` wants the whole text to be one document, blanks
around it aside. The fuel of the reader is twice the length of the text, which is always enough,
because between two calls that consume nothing there is one that consumes a character.
-/
namespace CapabilityGate.Json

/-- The four characters that may stand between the parts of a document. -/
def isBlank (c : Char) : Bool := c = ' ' || c = '\n' || c = '\t' || c = '\r'

/-- Drops blanks in front. -/
def skipBlanks (cs : List Char) : List Char := cs.dropWhile isBlank

/-! ## Strings -/

/-- A part of a string: a character, or a 16-bit unit that was written by its number. -/
inductive Part where
  | char (c : Char)
  | unit (n : Nat)
deriving DecidableEq, Repr

/-- The value of a digit in base sixteen. -/
def hexValue? (c : Char) : Option Nat :=
  if '0' ≤ c ∧ c ≤ '9' then some (c.toNat - 48)
  else if 'a' ≤ c ∧ c ≤ 'f' then some (c.toNat - 87)
  else if 'A' ≤ c ∧ c ≤ 'F' then some (c.toNat - 55)
  else none

/-- The number that four digits in base sixteen stand for. -/
def hexUnit? (a b c d : Char) : Option Nat := do
  let a ← hexValue? a
  let b ← hexValue? b
  let c ← hexValue? c
  let d ← hexValue? d
  return ((a * 16 + b) * 16 + c) * 16 + d

/-- The character after a backslash. -/
def escaped? (c : Char) : Option Char :=
  if c = '"' then some '"'
  else if c = '\\' then some '\\'
  else if c = '/' then some '/'
  else if c = 'b' then some (Char.ofNat 8)
  else if c = 'f' then some (Char.ofNat 12)
  else if c = 'n' then some '\n'
  else if c = 'r' then some '\r'
  else if c = 't' then some '\t'
  else none

/-- The parts of a string up to its closing quote. -/
def readParts : List Char → Option (List Part × List Char)
  | [] => none
  | '"' :: cs => some ([], cs)
  | '\\' :: 'u' :: a :: b :: c :: d :: cs => do
    let n ← hexUnit? a b c d
    let (parts, rest) ← readParts cs
    return (.unit n :: parts, rest)
  | '\\' :: e :: cs => do
    let c ← escaped? e
    let (parts, rest) ← readParts cs
    return (.char c :: parts, rest)
  | c :: cs => do
    if c.toNat < 32 ∨ c = '\\' then none
    else
      let (parts, rest) ← readParts cs
      return (.char c :: parts, rest)

/-- Is this the first half of a surrogate pair. -/
def isHighHalf (n : Nat) : Bool := 0xD800 ≤ n && n < 0xDC00

/-- Is this the second half of a surrogate pair. -/
def isLowHalf (n : Nat) : Bool := 0xDC00 ≤ n && n < 0xE000

/-- The characters of a string, unless half of a surrogate pair stands alone. -/
def joinParts : List Part → Option (List Char)
  | [] => some []
  | .char c :: ps => (joinParts ps).map (c :: ·)
  | .unit n :: ps =>
    if isHighHalf n then
      match ps with
      | .unit m :: ps =>
        if isLowHalf m then
          (joinParts ps).map (Char.ofNat (0x10000 + (n - 0xD800) * 0x400 + (m - 0xDC00)) :: ·)
        else none
      | _ => none
    else if isLowHalf n then none
    else (joinParts ps).map (Char.ofNat n :: ·)

/-- A string after its opening quote; `none` inside when its text has no meaning. -/
def readString (cs : List Char) : Option (Option String × List Char) :=
  (readParts cs).map fun (parts, rest) => ((joinParts parts).map String.ofList, rest)

/-! ## Numbers -/

/-- A run of digits, at least one. -/
def readDigits (cs : List Char) : Option (List Char × List Char) :=
  let ds := cs.takeWhile Decimal.isDigit
  if ds.isEmpty then none else some (ds, cs.dropWhile Decimal.isDigit)

/-- The digits before the point: more than one only if the first is not zero. -/
def readWhole : List Char → Option (List Char × List Char)
  | '0' :: cs => if (cs.head?.map Decimal.isDigit) = some true then none else some (['0'], cs)
  | cs => readDigits cs

/-- The digits after a point, if there is one. -/
def readFraction : List Char → Option (Option (List Char) × List Char)
  | '.' :: cs => (readDigits cs).map fun (ds, rest) => (some ds, rest)
  | cs => some (none, cs)

/-- The sign and the digits of an exponent, if there is one. -/
def readExponent : List Char → Option (Option (Bool × List Char) × List Char)
  | [] => some (none, [])
  | c :: cs =>
    if c = 'e' ∨ c = 'E' then
      match cs with
      | '-' :: cs => (readDigits cs).map fun (ds, rest) => (some (true, ds), rest)
      | '+' :: cs => (readDigits cs).map fun (ds, rest) => (some (false, ds), rest)
      | cs => (readDigits cs).map fun (ds, rest) => (some (false, ds), rest)
    else some (none, c :: cs)

/-- A number without its sign. -/
def readNumeral (negative : Bool) (cs : List Char) : Option (Numeral × List Char) := do
  let (whole, cs) ← readWhole cs
  let (fraction, cs) ← readFraction cs
  let (exponent, cs) ← readExponent cs
  return (⟨negative, whole, fraction, exponent⟩, cs)

/-! ## Documents -/

/-- The text after a word, if the text starts with the word. -/
def afterWord? (word : String) (cs : List Char) : Option (List Char) :=
  if word.toList.isPrefixOf cs then some (cs.drop word.length) else none

/-- An object of entries of which some may have unreadable keys. -/
def ofEntries (entries : List (Option String × Json)) : Json :=
  match entries.mapM fun e => e.1.map fun key => (key, e.2) with
  | some entries => object entries
  | none => unreadable

mutual

/-- A document at the start of a text. -/
def readValue : Nat → List Char → Option (Json × List Char)
  | 0, _ => none
  | fuel + 1, cs =>
    match cs with
    | '"' :: cs =>
      (readString cs).map fun (s, rest) => ((s.map string).getD unreadable, rest)
    | '[' :: cs =>
      match skipBlanks cs with
      | ']' :: rest => some (array [], rest)
      | cs => (readItems fuel cs).map fun (items, rest) => (array items, rest)
    | '\x7b' :: cs =>
      match skipBlanks cs with
      | '\x7d' :: rest => some (object [], rest)
      | cs => (readEntries fuel cs).map fun (entries, rest) => (ofEntries entries, rest)
    | 'n' :: _ => (afterWord? "null" cs).map fun rest => (null, rest)
    | 't' :: _ => (afterWord? "true" cs).map fun rest => (bool true, rest)
    | 'f' :: _ => (afterWord? "false" cs).map fun rest => (bool false, rest)
    | '-' :: cs => (readNumeral true cs).map fun (n, rest) => (n.value, rest)
    | cs => (readNumeral false cs).map fun (n, rest) => (n.value, rest)

/-- The items of an array up to its closing bracket, the first one being next. -/
def readItems : Nat → List Char → Option (List Json × List Char)
  | 0, _ => none
  | fuel + 1, cs =>
    match readValue fuel cs with
    | none => none
    | some (item, cs) =>
      match skipBlanks cs with
      | ']' :: rest => some ([item], rest)
      | ',' :: cs =>
        (readItems fuel (skipBlanks cs)).map fun (items, rest) => (item :: items, rest)
      | _ => none

/-- The entries of an object up to its closing brace, the first one being next. -/
def readEntries : Nat → List Char → Option (List (Option String × Json) × List Char)
  | 0, _ => none
  | fuel + 1, cs =>
    match cs with
    | '"' :: cs =>
      match readString cs with
      | none => none
      | some (key, cs) =>
        match skipBlanks cs with
        | ':' :: cs =>
          match readValue fuel (skipBlanks cs) with
          | none => none
          | some (value, cs) =>
            match skipBlanks cs with
            | '\x7d' :: rest => some ([(key, value)], rest)
            | ',' :: cs =>
              (readEntries fuel (skipBlanks cs)).map fun (entries, rest) =>
                ((key, value) :: entries, rest)
            | _ => none
        | _ => none
    | _ => none

end

/-- **`parse s`** — the document that the whole text is. -/
def parse (s : String) : Option Json :=
  let cs := s.toList
  match readValue (2 * cs.length + 2) (skipBlanks cs) with
  | some (j, rest) => if (skipBlanks rest).isEmpty then some j else none
  | none => none

end CapabilityGate.Json
