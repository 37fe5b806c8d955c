import CapabilityGate.Binary64
import CapabilityGate.Decimal.Layout

/-!
# JSON documents

A document as a tree, and its two printed forms: compact, and with one entry per line and two blanks
per level. A number is an integer when it is written as one and fits 64 bits, else a floating-point
number. Text that is correct as JSON but that no reader can give a meaning to (half of a surrogate
pair on its own, a number beyond all floating-point numbers) is kept as `unreadable`, so that it can
still be skipped where nobody asks for it.
-/
namespace CapabilityGate

/-- A JSON document. -/
inductive Json where
  | null
  | bool (b : Bool)
  | int (n : Int)
  | float (x : Binary64)
  | string (s : String)
  | array (items : List Json)
  | object (entries : List (String × Json))
  /-- Well-formed, but without a meaning. -/
  | unreadable
deriving Repr, Inhabited

namespace Json

/-- The character of one digit in base sixteen. -/
def hexDigit (n : Nat) : Char := if n < 10 then Char.ofNat (48 + n) else Char.ofNat (87 + n)

/-- One character inside a string: quotes, backslashes and control characters are escaped. -/
def escapeChar (c : Char) : List Char :=
  if c = '"' then ['\\', '"']
  else if c = '\\' then ['\\', '\\']
  else if c = '\n' then ['\\', 'n']
  else if c = '\r' then ['\\', 'r']
  else if c = '\t' then ['\\', 't']
  else if c.toNat = 8 then ['\\', 'b']
  else if c.toNat = 12 then ['\\', 'f']
  else if c.toNat < 32 then
    ['\\', 'u', '0', '0', hexDigit (c.toNat / 16), hexDigit (c.toNat % 16)]
  else [c]

/-- A string in quotes. -/
def quote (s : String) : List Char := '"' :: (s.toList.flatMap escapeChar ++ ['"'])

mutual

/-- **`writeWith indent level j`** — the text of a document; `indent` says whether every entry
stands on a line of its own. -/
def writeWith (indent : Bool) (level : Nat) : Json → List Char
  | null => "null".toList
  | bool b => if b then "true".toList else "false".toList
  | int n => Decimal.signedDigits n
  | float x => Decimal.jsonText x
  | string s => quote s
  | array [] => "[]".toList
  | array (item :: items) =>
    '[' :: (lineBreak indent (level + 1) ++ writeWith indent (level + 1) item ++
      (writeItems indent (level + 1) items ++ (lineBreak indent level ++ [']'])))
  | object [] => ['\x7b', '\x7d']
  | object ((key, value) :: entries) =>
    '\x7b' :: (lineBreak indent (level + 1) ++ quote key ++ ':' :: blank indent ++
      writeWith indent (level + 1) value ++
      (writeEntries indent (level + 1) entries ++ (lineBreak indent level ++ ['\x7d'])))
  | unreadable => "null".toList

/-- The later items of an array, each after a comma. -/
def writeItems (indent : Bool) (level : Nat) : List Json → List Char
  | [] => []
  | item :: items =>
    ',' :: (lineBreak indent level ++ writeWith indent level item ++
      writeItems indent level items)

/-- The later entries of an object, each after a comma. -/
def writeEntries (indent : Bool) (level : Nat) : List (String × Json) → List Char
  | [] => []
  | (key, value) :: entries =>
    ',' :: (lineBreak indent level ++ quote key ++ ':' :: blank indent ++
      writeWith indent level value ++ writeEntries indent level entries)

/-- The start of a line at a level, in the indented form. -/
def lineBreak (indent : Bool) (level : Nat) : List Char :=
  if indent then '\n' :: List.replicate (2 * level) ' ' else []

/-- The blank after a colon, in the indented form. -/
def blank (indent : Bool) : List Char := if indent then [' '] else []

end

/-- The text of a document on one line, without blanks. -/
def compact (j : Json) : String := String.ofList (writeWith false 0 j)

/-- The text of a document with one entry per line. -/
def pretty (j : Json) : String := String.ofList (writeWith true 0 j)

/-- The value of the first entry of an object with this key; null where there is none. -/
def field (j : Json) (key : String) : Json :=
  match j with
  | object entries => ((entries.find? (·.1 = key)).map Prod.snd).getD null
  | _ => null

end Json

end CapabilityGate
