import CapabilityGate.Binary64

/-!
# Values

The dynamic values that code units compute with, and the questions about a value that do not need
a catalog: its kind, whether it can be called, how diagnostics describe it, and whether it equals
another one. The entries of maps and objects are kept in the order of their keys, each key once;
`putEntry` is the one way to add an entry.
-/
namespace CapabilityGate

/-- A value; a function is known by its symbol, a method by its receiver and name. -/
inductive Value where
  | unit
  | bool (b : Bool)
  | int (n : Int64)
  | float (x : Binary64)
  | str (s : String)
  | bytes (bs : List UInt8)
  | list (items : List Value)
  | tuple (items : List Value)
  | map (entries : List (String × Value))
  | object (className : String) (fields : List (String × Value))
  | function (symbol : String)
  | method (receiver : Value) (name : String)
deriving Repr, Inhabited

/-- The twelve kinds of values. -/
inductive Kind where
  | unit
  | bool
  | int
  | float
  | str
  | bytes
  | list
  | tuple
  | map
  | object
  | function
  | method
deriving DecidableEq, Repr

namespace Kind

/-- All kinds, in their usual order. -/
def all : List Kind :=
  [unit, bool, int, float, str, bytes, list, tuple, map, object, function, method]

/-- The word for a kind. -/
def name : Kind → String
  | unit => "unit"
  | bool => "bool"
  | int => "int"
  | float => "float"
  | str => "str"
  | bytes => "bytes"
  | list => "list"
  | tuple => "tuple"
  | map => "map"
  | object => "object"
  | function => "function"
  | method => "method"

/-- The kind that a word names. -/
def ofName? (s : String) : Option Kind := all.find? (·.name == s)

/-- The kinds whose listed methods every caller may use. -/
def safePrimitives : List Kind := [bool, int, float, str, bytes, list, tuple, map]

/-- Is this one of the kinds whose listed methods every caller may use. -/
def isSafePrimitive (k : Kind) : Bool := safePrimitives.contains k

end Kind

/-! ## Entries in the order of their keys -/

/-- The value of the entry with this key. -/
def findEntry {α : Type} (key : String) : List (String × α) → Option α
  | [] => none
  | (k, v) :: es => if k = key then some v else findEntry key es

/-- Adds an entry at its place in the order of keys, or replaces the one with the same key. -/
def putEntry {α : Type} (key : String) (value : α) : List (String × α) → List (String × α)
  | [] => [(key, value)]
  | (k, v) :: es =>
    if key < k then (key, value) :: (k, v) :: es
    else if key = k then (key, value) :: es
    else (k, v) :: putEntry key value es

/-- The entries of a list in the order of keys; of equal keys the last one counts. -/
def sortEntries {α : Type} (es : List (String × α)) : List (String × α) :=
  es.foldl (fun sorted e => putEntry e.1 e.2 sorted) []

namespace Value

/-- The kind of a value. -/
def kind : Value → Kind
  | unit => .unit
  | bool _ => .bool
  | int _ => .int
  | float _ => .float
  | str _ => .str
  | bytes _ => .bytes
  | list _ => .list
  | tuple _ => .tuple
  | map _ => .map
  | object _ _ => .object
  | function _ => .function
  | method _ _ => .method

/-- Functions and bound methods can be called. -/
def isCallable : Value → Bool
  | function _ => true
  | method _ _ => true
  | _ => false

/-- The text of a string. -/
def text? : Value → Option String
  | str s => some s
  | _ => none

/-- The number of an integer. -/
def integer? : Value → Option Int64
  | int n => some n
  | _ => none

/-- The class of an object, the kind of anything else. -/
def typeName : Value → String
  | object c _ => c
  | v => v.kind.name

/-- A few words for diagnostics. -/
def describe : Value → String
  | function symbol => s!"function '{symbol}'"
  | method receiver name => s!"method '{receiver.typeName}.{name}'"
  | v => s!"value of type '{v.typeName}'"

/-- The value of an object's field, unit where there is none. -/
def field (key : String) : Value → Value
  | object _ fields => (findEntry key fields).getD unit
  | _ => unit

/-- The value inside `n` lists of one element each. -/
def nest : Nat → Value → Value
  | 0, v => v
  | n + 1, v => nest n (list [v])

mutual

/-- **`same v w`** — equality of values: values of two kinds differ, and numbers compare as
numbers of their format. -/
def same : Value → Value → Bool
  | unit, unit => true
  | bool a, bool b => a == b
  | int a, int b => a == b
  | float a, float b => a.same b
  | str a, str b => a == b
  | bytes a, bytes b => a == b
  | list a, list b => sameItems a b
  | tuple a, tuple b => sameItems a b
  | map a, map b => sameEntries a b
  | object c a, object d b => c == d && sameEntries a b
  | function a, function b => a == b
  | method r a, method s b => same r s && a == b
  | _, _ => false

/-- Equality of two lists, item by item. -/
def sameItems : List Value → List Value → Bool
  | [], [] => true
  | a :: as, b :: bs => same a b && sameItems as bs
  | _, _ => false

/-- Equality of two lists of entries, entry by entry. -/
def sameEntries : List (String × Value) → List (String × Value) → Bool
  | [], [] => true
  | (k, a) :: as, (l, b) :: bs => k == l && same a b && sameEntries as bs
  | _, _ => false

end

end Value

end CapabilityGate
