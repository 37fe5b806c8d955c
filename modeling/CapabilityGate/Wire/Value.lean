import CapabilityGate.Wire.Shape

/-!
# Values on the wire

A value is written as an object with the word of its kind under `type` and its content under
`value`; unit has no content. The two entries may come in any order, among others that are skipped,
but each only once; an array of the two is read as well. Content that comes before its kind is held
until the kind is known: all of it has to be readable, and the values in it may name their kinds in
two more ways.
-/
namespace CapabilityGate

namespace Value

mutual

/-- The wire form of a value. -/
def toJson : Value → Json
  | unit => .object [("type", .string "unit")]
  | bool b => tag .bool (.bool b)
  | int n => tag .int (.int n.toInt)
  | float x => tag .float (.float x)
  | str s => tag .str (.string s)
  | bytes bs => tag .bytes (.array (bs.map fun b => .int b.toNat))
  | list items => tag .list (.array (itemsToJson items))
  | tuple items => tag .tuple (.array (itemsToJson items))
  | map entries => tag .map (.object (entriesToJson entries))
  | object className fields =>
    tag .object (.object [("class", .string className), ("fields", .object (entriesToJson fields))])
  | function symbol => tag .function (.string symbol)
  | method receiver name =>
    tag .method (.object [("receiver", toJson receiver), ("name", .string name)])

/-- The wire forms of items. -/
def itemsToJson : List Value → List Json
  | [] => []
  | v :: vs => toJson v :: itemsToJson vs

/-- The wire forms of entries. -/
def entriesToJson : List (String × Value) → List (String × Json)
  | [] => []
  | (k, v) :: es => (k, toJson v) :: entriesToJson es

/-- A kind with its content. -/
def tag (kind : Kind) (content : Json) : Json :=
  .object [("type", .string kind.name), ("value", content)]

end

/-- The kind that stands under `type`: a word. Where the document is *held*, that is, was set aside
before its own kind was known, the object form of the word may have an empty object in place of
null. -/
def kindWord? (held : Bool) : Wire.Reader Kind
  | levels, .object [(s, .object [])] =>
    if held then Wire.case Kind.all Kind.name levels (.string s) else none
  | levels, j => Wire.case Kind.all Kind.name levels j

/-- The kind that is the first item of an array: a text, or its number where the document is
held. -/
def kindItem? (held : Bool) : Json → Option Kind
  | .string s => Kind.ofName? s
  | .int n => if held && 0 ≤ n then Kind.all[n.toNat]? else none
  | _ => none

/-- A value that is read in part. -/
structure Tagged where
  kind : Kind
  /-- The content, if it is there. -/
  content : Option Json
  /-- Whether the content is held. -/
  held : Bool

/-- The kind and the content that a document has, the content with the nesting that is left. -/
def tagged? (held : Bool) : Wire.Reader Tagged
  | levels + 1, .object es =>
    match Wire.valuesOf "type" es, Wire.valuesOf "value" es with
    | [t], [] => (kindWord? held levels t).map fun k => ⟨k, none, held⟩
    | [t], [c] =>
      let first := (es.find? fun e => e.1 == "type" || e.1 == "value").map Prod.fst
      if first = some "type" then (kindWord? held levels t).map fun k => ⟨k, some c, held⟩
      else if Wire.isReadable levels c then
        (kindWord? held levels t).map fun k => ⟨k, some c, true⟩
      else none
    | _, _ => none
  | _ + 1, .array [t, c] => (kindItem? held t).map fun k => ⟨k, some c, held⟩
  | _, _ => none

/-- An object by its class and fields, with a reader for the fields. -/
def objectOf? (fields : Wire.Reader (List (String × Value))) : Wire.Reader Value
  | levels + 1, j =>
    match Wire.fields true ["class", "fields"] (levels + 1) j with
    | some [c, f] => do
      let c ← Wire.required Wire.text levels c
      let f ← Wire.required fields levels f
      return object c f
    | _ => none
  | _, _ => none

/-- A method by its receiver and name, with a reader for the receiver. -/
def methodOf? (receiver : Wire.Reader Value) : Wire.Reader Value
  | levels + 1, j =>
    match Wire.fields true ["receiver", "name"] (levels + 1) j with
    | some [r, n] => do
      let r ← Wire.required receiver levels r
      let n ← Wire.required Wire.text levels n
      return method r n
    | _ => none
  | _, _ => none

/-- The value of a kind with the given content, with a reader for values inside. -/
def ofContent? (inner : Wire.Reader Value) (levels : Nat) : Kind → Option Json → Option Value
  | .unit, none => some unit
  | .unit, some .null => some unit
  | .unit, some _ => none
  | _, none => none
  | .bool, some j => (Wire.boolean levels j).map bool
  | .int, some j =>
    (Wire.integer Int64.minValue.toInt Int64.maxValue.toInt levels j).map fun n => int (.ofInt n)
  | .float, some j => (Wire.floating levels j).map float
  | .str, some j => (Wire.text levels j).map str
  | .bytes, some j =>
    (Wire.items (Wire.natural 256) levels j).map fun bs => bytes (bs.map UInt8.ofNat)
  | .list, some j => (Wire.items inner levels j).map list
  | .tuple, some j => (Wire.items inner levels j).map tuple
  | .map, some j => (Wire.entries inner levels j).map map
  | .object, some j => objectOf? (Wire.entries inner) levels j
  | .function, some j => (Wire.text levels j).map function
  | .method, some j => methodOf? inner levels j

/-- Reads a value whose parts are nested at most `depth` values deep. -/
def ofJsonWithin? : Nat → Bool → Wire.Reader Value
  | 0, _ => fun _ _ => none
  | depth + 1, held => fun levels j => do
    let t ← tagged? held levels j
    ofContent? (ofJsonWithin? depth t.held) (levels - 1) t.kind t.content

/-- **`ofJson? levels j`** — the value that a document holds. Every value enters at least one object
or array, so the nesting bounds the depth as well. -/
def ofJson? : Wire.Reader Value := fun levels j => ofJsonWithin? levels false levels j

end Value

end CapabilityGate
