import CapabilityGate.Decimal.Digits

/-!
# Blanks, comments and strings in TOML documents

Every function takes the text that is left and returns the text after what it read. Line breaks are
written with or without a carriage return and are always read as a line feed. Control characters
other than the tab are nowhere allowed.
-/
namespace CapabilityGate.Toml

/-- Blanks within a line. -/
def isBlank (c : Char) : Bool := c = ' ' || c = '\t'

/-- Drops blanks within a line. -/
def skipBlanks (cs : List Char) : List Char := cs.dropWhile isBlank

/-- The text after a line break. -/
def afterBreak? : List Char → Option (List Char)
  | '\n' :: cs => some cs
  | '\r' :: '\n' :: cs => some cs
  | _ => none

/-- A character that is no control character, or a tab. -/
def isPlain (c : Char) : Bool := c = '\t' || (32 ≤ c.toNat && c.toNat ≠ 127)

/-- Drops a comment, if there is one. -/
def skipComment : List Char → List Char
  | '#' :: cs => cs.dropWhile isPlain
  | cs => cs

/-- The text after the end of a line; blanks and a comment may come before it. -/
def endLine? (cs : List Char) : Option (List Char) :=
  match skipComment (skipBlanks cs) with
  | [] => some []
  | cs => afterBreak? cs

/-- Drops blanks, line breaks and comments that end with a line break. -/
def skipLines : Nat → List Char → List Char
  | 0, cs => cs
  | fuel + 1, cs =>
    match skipBlanks cs with
    | [] => []
    | '#' :: rest =>
      match afterBreak? (rest.dropWhile isPlain) with
      | some cs => skipLines fuel cs
      | none => '#' :: rest
    | cs =>
      match afterBreak? cs with
      | some cs => skipLines fuel cs
      | none => cs

/-! ## Strings -/

/-- The value of a digit in base sixteen. -/
def hexValue? (c : Char) : Option Nat :=
  if '0' ≤ c ∧ c ≤ '9' then some (c.toNat - 48)
  else if 'a' ≤ c ∧ c ≤ 'f' then some (c.toNat - 87)
  else if 'A' ≤ c ∧ c ≤ 'F' then some (c.toNat - 55)
  else none

/-- The character with the code point that the first `count` digits give. -/
def codePoint? (count : Nat) (cs : List Char) : Option (Char × List Char) := do
  let ds := cs.take count
  if ds.length ≠ count then none
  let values ← ds.mapM hexValue?
  let n := values.foldl (fun n d => 16 * n + d) 0
  if n < 0xD800 ∨ (0xE000 ≤ n ∧ n < 0x110000) then some (Char.ofNat n, cs.drop count) else none

/-- The character that stands after a backslash. -/
def escape? : List Char → Option (Char × List Char)
  | 'b' :: cs => some (Char.ofNat 8, cs)
  | 't' :: cs => some ('\t', cs)
  | 'n' :: cs => some ('\n', cs)
  | 'f' :: cs => some (Char.ofNat 12, cs)
  | 'r' :: cs => some ('\r', cs)
  | '"' :: cs => some ('"', cs)
  | '\\' :: cs => some ('\\', cs)
  | 'u' :: cs => codePoint? 4 cs
  | 'U' :: cs => codePoint? 8 cs
  | _ => none

/-- A text between double quotes, after the first one. -/
def basicString : Nat → List Char → Option (List Char × List Char)
  | 0, _ => none
  | _, [] => none
  | _, '"' :: cs => some ([], cs)
  | fuel + 1, '\\' :: cs => do
    let (c, cs) ← escape? cs
    let (text, rest) ← basicString fuel cs
    return (c :: text, rest)
  | fuel + 1, c :: cs => do
    if !isPlain c then none
    let (text, rest) ← basicString fuel cs
    return (c :: text, rest)

/-- A text between single quotes, after the first one; nothing in it is escaped. -/
def literalString (cs : List Char) : Option (List Char × List Char) :=
  let inside (c : Char) : Bool := isPlain c && c ≠ '\''
  match cs.dropWhile inside with
  | '\'' :: rest => some (cs.takeWhile inside, rest)
  | _ => none

/-- Drops blanks and line breaks. -/
def skipSpace : Nat → List Char → List Char
  | 0, cs => cs
  | fuel + 1, cs =>
    match afterBreak? (skipBlanks cs) with
    | some cs => skipSpace fuel cs
    | none => skipBlanks cs

/-- The end of a text of several lines, at a run of at least three quotes: up to two of them belong
to the text. -/
def closeQuotes (quote : Char) (cs : List Char) : List Char × List Char :=
  let run := min 5 (cs.takeWhile (· = quote)).length
  (List.replicate (run - 3) quote, cs.drop run)

/-- Do three quotes come next. -/
def startsWithThree (quote : Char) (cs : List Char) : Bool :=
  [quote, quote, quote].isPrefixOf cs

/-- A text of several lines between groups of three quotes, after the first group. In double quotes
there are escapes, and a backslash at the end of a line drops the break and all space after it. -/
def longString (quote : Char) : Nat → List Char → Option (List Char × List Char)
  | 0, _ => none
  | fuel + 1, cs =>
    if startsWithThree quote cs then some (closeQuotes quote cs)
    else
      match afterBreak? cs with
      | some cs => (longString quote fuel cs).map fun (text, rest) => ('\n' :: text, rest)
      | none =>
        match cs with
        | [] => none
        | c :: cs =>
          if c = '\\' ∧ quote = '"' then
            match afterBreak? (skipBlanks cs) with
            | some _ => longString quote fuel (skipSpace cs.length cs)
            | none => do
              let (c, cs) ← escape? cs
              let (text, rest) ← longString quote fuel cs
              return (c :: text, rest)
          else if isPlain c then
            (longString quote fuel cs).map fun (text, rest) => (c :: text, rest)
          else none

/-- A string of any of the four forms, quotes included. -/
def string? (cs : List Char) : Option (String × List Char) :=
  let quoted (quote : Char) (inside : List Char) : Option (List Char × List Char) :=
    if startsWithThree quote cs then
      let body := cs.drop 3
      longString quote (body.length + 1) ((afterBreak? body).getD body)
    else if quote = '"' then basicString (inside.length + 1) inside
    else literalString inside
  match cs with
  | '"' :: inside => (quoted '"' inside).map fun (s, rest) => (String.ofList s, rest)
  | '\'' :: inside => (quoted '\'' inside).map fun (s, rest) => (String.ofList s, rest)
  | _ => none

/-! ## Keys -/

/-- A character of a key without quotes. -/
def isBareChar (c : Char) : Bool :=
  ('a' ≤ c && c ≤ 'z') || ('A' ≤ c && c ≤ 'Z') || ('0' ≤ c && c ≤ '9') || c = '_' || c = '-'

/-- One part of a key: bare, or a string on one line. -/
def keyPart? (cs : List Char) : Option (String × List Char) :=
  match cs with
  | '"' :: inside =>
    (basicString (inside.length + 1) inside).map fun (s, rest) => (String.ofList s, rest)
  | '\'' :: inside => (literalString inside).map fun (s, rest) => (String.ofList s, rest)
  | cs =>
    let bare := cs.takeWhile isBareChar
    if bare.isEmpty then none else some (String.ofList bare, cs.dropWhile isBareChar)

/-- The parts that a key may have, and the arrays and inline tables that may be nested in one
another. -/
def nestingLimit : Nat := 79

/-- **`key? parts cs`** — a key of at most so many parts, with dots between them and blanks around
each part; the path and the last part. -/
def key? : Nat → List Char → Option (List String × String × List Char)
  | 0, _ => none
  | parts + 1, cs => do
    let (part, cs) ← keyPart? (skipBlanks cs)
    match skipBlanks cs with
    | '.' :: cs =>
      let (path, last, rest) ← key? parts cs
      return (part :: path, last, rest)
    | cs => return ([], part, cs)

end CapabilityGate.Toml
