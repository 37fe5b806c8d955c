import CapabilityGate.Json.Reader
import CapabilityGate.Value.Basic

/-!
# Shapes of documents

The few shapes that the wire format is made of. A *word* names a case that holds no data. A *tagged*
document names a case and holds its data. A *record* lists named fields; it may also be written as
an array of all its fields in order. Readers count the arrays and objects they enter, and refuse
documents that nest deeper than `nestingLimit`.
-/
namespace CapabilityGate.Wire

/-- The arrays and objects that may be nested in one another. -/
def nestingLimit : Nat := 127

/-- Reads an `α` from a document that may still enter so many arrays and objects. -/
abbrev Reader (α : Type) := Nat → Json → Option α

/-- Can every part of a document be read, within the given nesting. -/
def isReadable : Nat → Json → Bool
  | _, .unreadable => false
  | 0, .array _ => false
  | 0, .object _ => false
  | levels + 1, .array items => items.all fun j => isReadable levels j
  | levels + 1, .object entries => entries.all fun e => isReadable levels e.2
  | _, _ => true

/-- A text. -/
def text : Reader String
  | _, .string s => some s
  | _, _ => none

/-- An integer between two bounds, these included. -/
def integer (least greatest : Int) : Reader Int
  | _, .int n => if least ≤ n ∧ n ≤ greatest then some n else none
  | _, _ => none

/-- A natural number below `bound`. -/
def natural (bound : Nat) : Reader Nat
  | _, .int n => if 0 ≤ n ∧ n < bound then some n.toNat else none
  | _, _ => none

/-- A truth value. -/
def boolean : Reader Bool
  | _, .bool b => some b
  | _, _ => none

/-- A floating-point number; integers are taken for their nearest one. -/
def floating : Reader Binary64
  | _, .float x => some x
  | _, .int n => some (.ofInt n)
  | _, _ => none

/-- The items of an array. -/
def items {α : Type} (item : Reader α) : Reader (List α)
  | levels + 1, .array js => js.mapM (item levels)
  | _, _ => none

/-- The entries of an object in the order of keys; of equal keys the last one counts. -/
def entries {α : Type} (value : Reader α) : Reader (List (String × α))
  | levels + 1, .object es =>
    (es.mapM fun e => (value levels e.2).map fun v => (e.1, v)).map sortEntries
  | _, _ => none

/-- A document that may be null. -/
def optional {α : Type} (value : Reader α) : Reader (Option α)
  | _, .null => some none
  | levels, j => (value levels j).map some

/-- A word: a text, or an object whose one entry has the word as its key and null as its value. -/
def word : Reader String
  | _, .string s => some s
  | _ + 1, .object [(s, .null)] => some s
  | _, _ => none

/-- A word out of a list of cases. -/
def case {α : Type} (cases : List α) (name : α → String) : Reader α := fun levels j =>
  (word levels j).bind fun s => cases.find? (name · == s)

/-- An object with one entry: the name of a case and its data. -/
def tagged : Reader (String × Json)
  | _ + 1, .object [(s, j)] => some (s, j)
  | _, _ => none

/-- The values of the entries with this key. -/
def valuesOf (key : String) (es : List (String × Json)) : List Json :=
  (es.filter (·.1 == key)).map Prod.snd

/-- The documents of the named fields, `none` for a field that is not there. No field may come
twice; other entries are skipped if `others` holds and refused if not. -/
def fields (others : Bool) (names : List String) : Reader (List (Option Json))
  | _ + 1, .object es =>
    if others || es.all fun e => names.contains e.1 then
      names.mapM fun name =>
        match valuesOf name es with
        | [] => some none
        | [j] => some (some j)
        | _ => none
    else none
  | _ + 1, .array js => if js.length = names.length then some (js.map some) else none
  | _, _ => none

/-- A field that has to be there. -/
def required {α : Type} (value : Reader α) (levels : Nat) (j : Option Json) : Option α :=
  j.bind (value levels)

/-- A field that may be missing or null. -/
def missing {α : Type} (value : Reader α) (levels : Nat) : Option Json → Option (Option α)
  | none => some none
  | some j => optional value levels j

/-- Reads a whole text. -/
def read {α : Type} (value : Reader α) (s : String) : Option α :=
  (Json.parse s).bind (value nestingLimit)

end CapabilityGate.Wire
