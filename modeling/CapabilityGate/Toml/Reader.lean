import CapabilityGate.Toml.Basic
import CapabilityGate.Toml.Number

/-!
# Reading TOML documents

A document is read line by line: blank lines, headers and lines with a key and a value. `parse`
gives the table of a whole text, or nothing if the text breaks a rule of the format or nests too
deep. The reader's fuel is computed from the length of the text and is always enough.
-/
namespace CapabilityGate.Toml

/-- The character that opens an inline table. -/
def openBrace : Char := '\x7b'

/-- The character that closes an inline table. -/
def closeBrace : Char := '\x7d'

/-- A number, a date or a time. -/
def scalar? (cs : List Char) : Option (Value × List Char) :=
  match afterDateTime? cs with
  | some rest => some (.other, rest)
  | none =>
    match float? cs with
    | some (infinite, rest) => if infinite then none else some (.other, rest)
    | none => (integer? cs).map fun (n, rest) => (.integer n, rest)

mutual

/-- A value at the start of a text, with at most so many levels of arrays and inline tables. -/
def value? : Nat → Nat → List Char → Option (Value × List Char)
  | 0, _, _ => none
  | fuel + 1, levels, cs =>
    match cs with
    | [] => none
    | '[' :: cs =>
      match levels with
      | 0 => none
      | levels + 1 =>
        match skipLines cs.length cs with
        | ']' :: rest => some (.array [], rest)
        | cs => (items? fuel levels cs).map fun (items, rest) => (.array items, rest)
    | 't' :: 'r' :: 'u' :: 'e' :: rest => some (.boolean true, rest)
    | 'f' :: 'a' :: 'l' :: 's' :: 'e' :: rest => some (.boolean false, rest)
    | c :: cs =>
      if c = '"' ∨ c = '\'' then (string? (c :: cs)).map fun (s, rest) => (.string s, rest)
      else if c = openBrace then
        match levels, skipBlanks cs with
        | 0, _ => none
        | _, [] => none
        | levels + 1, d :: rest =>
          if d = closeBrace then some (.table [], rest)
          else
            (pairs? fuel levels [] (d :: rest)).map fun (es, rest) =>
              (.table (freezeEntries es), rest)
      else scalar? (c :: cs)

/-- The items of an array up to its closing bracket, the first one being next. -/
def items? : Nat → Nat → List Char → Option (List Value × List Char)
  | 0, _, _ => none
  | fuel + 1, levels, cs =>
    match value? fuel levels cs with
    | none => none
    | some (item, cs) =>
      match skipLines cs.length cs with
      | ']' :: rest => some ([item], rest)
      | ',' :: cs =>
        match skipLines cs.length cs with
        | ']' :: rest => some ([item], rest)
        | cs => (items? fuel levels cs).map fun (items, rest) => (item :: items, rest)
      | _ => none

/-- The entries of an inline table up to its closing brace, added to those read before. -/
def pairs? : Nat → Nat → Entries → List Char → Option (Entries × List Char)
  | 0, _, _, _ => none
  | fuel + 1, levels, es, cs =>
    match key? nestingLimit cs with
    | some (path, last, '=' :: cs) =>
      match value? fuel levels (skipBlanks cs) with
      | none => none
      | some (v, cs) =>
        match insertDotted path last v es, skipBlanks cs with
        | some es, ',' :: cs => pairs? fuel levels es cs
        | some es, c :: rest => if c = closeBrace then some (es, rest) else none
        | _, _ => none
    | _ => none

end

/-- A document as far as it has been read: its root, and the header that is in force. -/
structure Progress where
  root : Entries
  header : List String

/-- Reads one line that is not blank, and the line break after it. -/
def line? (p : Progress) (cs : List Char) : Option (Progress × List Char) :=
  match cs with
  | '[' :: '[' :: cs => do
    let (path, last, cs) ← key? nestingLimit cs
    match cs with
    | ']' :: ']' :: cs =>
      let root ← openElement path last p.root
      return (⟨root, path ++ [last]⟩, ← endLine? cs)
    | _ => none
  | '[' :: cs => do
    let (path, last, cs) ← key? nestingLimit cs
    match cs with
    | ']' :: cs =>
      let root ← openTable path last p.root
      return (⟨root, path ++ [last]⟩, ← endLine? cs)
    | _ => none
  | cs => do
    let (path, last, cs) ← key? nestingLimit cs
    match cs with
    | '=' :: cs =>
      let cs := skipBlanks cs
      let (v, cs) ← value? (2 * cs.length + 2) nestingLimit cs
      let root ← descend p.header false (fun _ es => insertDotted path last v es) false p.root
      return (⟨root, p.header⟩, ← endLine? cs)
    | _ => none

/-- Reads lines to the end of a text. -/
def lines? : Nat → Progress → List Char → Option Entries
  | 0, _, _ => none
  | fuel + 1, p, cs =>
    match skipBlanks cs with
    | [] => some p.root
    | '#' :: cs =>
      match endLine? ('#' :: cs) with
      | some rest => lines? fuel p rest
      | none => none
    | cs =>
      match afterBreak? cs with
      | some rest => lines? fuel p rest
      | none =>
        match line? p cs with
        | some (p, rest) => lines? fuel p rest
        | none => none

/-- **`parse s`** — the entries of the document that a text is; a byte order mark in front of it is
skipped. -/
def parse (s : String) : Option (List (String × Value)) :=
  let cs := match s.toList with
    | c :: cs => if c.toNat = 0xFEFF then cs else c :: cs
    | [] => []
  (lines? (cs.length + 1) ⟨[], []⟩ cs).map freezeEntries

end CapabilityGate.Toml
