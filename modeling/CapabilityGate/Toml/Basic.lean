import CapabilityGate.Value.Basic

/-!
# TOML documents

A document as a value, and the tables from which it is built up line by line. A table knows how it
came to be: by a header of its own, implied by the header of a table inside it, or by a dotted key.
A table can be defined once; a header may still define a table that so far was only implied by a
header, and a dotted key may only extend tables that dotted keys made.
-/
namespace CapabilityGate.Toml

/-- A value of a document; numbers with a point and dates are only known to be there. -/
inductive Value where
  | string (s : String)
  | integer (n : Int)
  | boolean (b : Bool)
  | other
  | array (items : List Value)
  | table (entries : List (String × Value))
deriving Repr, Inhabited

/-- What stands under a key while a document is read. -/
inductive Item where
  /-- A finished value. -/
  | value (v : Value)
  /-- A table: whether it is only implied, and whether a dotted key made it. -/
  | table (implied dotted : Bool) (entries : List (String × Item))
  /-- The tables that were given one after the other under the same header. -/
  | tables (elements : List (List (String × Item)))
deriving Repr, Inhabited

/-- The entries of a table that is being read. -/
abbrev Entries := List (String × Item)

/-- Puts an item under a key, in place of the one that is there. -/
def replace (key : String) (item : Item) : Entries → Entries
  | [] => [(key, item)]
  | (k, i) :: es => if k = key then (k, item) :: es else (k, i) :: replace key item es

/-- **`descend path dotted f made es`** — changes the table at the end of a path by `f`, which is
told whether a dotted key made that table (`made` says so of the table with the entries `es`).
Tables that are missing on the way are made. Only a dotted path refuses tables with a header. -/
def descend (path : List String) (dotted : Bool) (f : Bool → Entries → Option Entries)
    (made : Bool) (es : Entries) : Option Entries :=
  match path with
  | [] => f made es
  | key :: path =>
    match findEntry key es with
    | none => (descend path dotted f dotted []).map fun sub => es ++ [(key, .table true dotted sub)]
    | some (.value _) => none
    | some (.table implied by_ sub) =>
      if dotted && !implied then none
      else (descend path dotted f by_ sub).map fun sub => replace key (.table implied by_ sub) es
    | some (.tables elements) =>
      (descend path dotted f false (elements.getLast?.getD [])).map fun sub =>
        replace key (.tables (elements.dropLast ++ [sub])) es

/-- Puts a value under a new key of a table. -/
def addValue (dottedPath : Bool) (key : String) (item : Item) (made : Bool) (es : Entries) :
    Option Entries :=
  if made ≠ dottedPath then none
  else if (findEntry key es).isSome then none
  else some (es ++ [(key, item)])

/-- Puts a value under a dotted key, seen from a table. -/
def insertDotted (path : List String) (key : String) (v : Value) (es : Entries) : Option Entries :=
  descend path true (addValue (!path.isEmpty) key (.value v)) false es

/-- Defines the table of a header. -/
def openTable (path : List String) (key : String) (root : Entries) : Option Entries :=
  descend path false (fun _ es =>
    match findEntry key es with
    | none => some (es ++ [(key, .table false false [])])
    | some (.table true false sub) => some (replace key (.table false false sub) es)
    | some _ => none) false root

/-- Begins a further table under a header of several tables. -/
def openElement (path : List String) (key : String) (root : Entries) : Option Entries :=
  descend path false (fun _ es =>
    match findEntry key es with
    | none => some (es ++ [(key, .tables [[]])])
    | some (.tables elements) => some (replace key (.tables (elements ++ [[]])) es)
    | some _ => none) false root

mutual

/-- The value that an item has become. -/
def Item.freeze : Item → Value
  | .value v => v
  | .table _ _ es => .table (freezeEntries es)
  | .tables elements => .array (freezeAll elements)

/-- The values that the items of a table have become. -/
def freezeEntries : Entries → List (String × Value)
  | [] => []
  | (k, i) :: es => (k, i.freeze) :: freezeEntries es

/-- The values that several tables have become. -/
def freezeAll : List Entries → List Value
  | [] => []
  | es :: rest => .table (freezeEntries es) :: freezeAll rest

end

end CapabilityGate.Toml
