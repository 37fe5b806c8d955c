import CapabilityGate.Proofs.Wire.Document
import CapabilityGate.Wire.Value

/-!
# Values read back

What a reader makes of a value that was written and parsed again. Two things can go wrong: the
document of the value is nested deeper than the reader follows (`Value.nesting`), or a number in it
does not come back as it was (`Value.reread?`). Nothing else can, whatever strings, maps and objects
are in the value: `Value.ofJson?_reread` is an equation.
-/
namespace CapabilityGate

/-! ## Entries in order -/

theorem putEntry_greatest {α : Type} {key : String} {value : α} {es : List (String × α)}
    (greatest : ∀ e ∈ es, e.1 < key) : putEntry key value es = es ++ [(key, value)] := by
  induction es with
  | nil => rfl
  | cons e es ih =>
    obtain ⟨k, v⟩ := e
    have below : k < key := greatest _ List.mem_cons_self
    have above : ¬ key < k := String.lt_asymm below
    have other : ¬ key = k := fun h => String.lt_irrefl k (h ▸ below)
    rw [putEntry, if_neg above, if_neg other, ih fun e he => greatest e (.tail _ he)]
    rfl

/-- Entries in the order of their keys stay as they are. -/
theorem sortEntries_eq_self {α : Type} {es : List (String × α)}
    (ordered : (es.map Prod.fst).Pairwise (· < ·)) : sortEntries es = es := by
  have step : ∀ sorted es : List (String × α), ((sorted ++ es).map Prod.fst).Pairwise (· < ·) →
      es.foldl (fun sorted e => putEntry e.1 e.2 sorted) sorted = sorted ++ es := by
    intro sorted es h
    induction es generalizing sorted with
    | nil => simp
    | cons e es ih =>
      have greatest : ∀ f ∈ sorted, f.1 < e.1 := by
        intro f hf
        rw [List.map_append, List.pairwise_append] at h
        exact h.2.2 _ (List.mem_map_of_mem hf) _ (List.mem_map_of_mem List.mem_cons_self)
      rw [List.foldl_cons, putEntry_greatest greatest, ih _ (by simpa using h)]
      simp
  exact step [] es ordered

/-! ## What comes back -/

namespace Value

mutual

/-- **`v.reread?`** — the value that is read for a value that was written, if every number in it is
read as a number. Entries come in the order of their keys. -/
def reread? : Value → Option Value
  | float x => x.reread?.map float
  | list items => (rereadItems? items).map list
  | tuple items => (rereadItems? items).map tuple
  | map entries => (rereadEntries? entries).map fun es => map (sortEntries es)
  | object className fields =>
    (rereadEntries? fields).map fun es => object className (sortEntries es)
  | method receiver name => (reread? receiver).map fun r => method r name
  | unit => some unit
  | bool b => some (bool b)
  | int n => some (int n)
  | str s => some (str s)
  | bytes bs => some (bytes bs)
  | function symbol => some (function symbol)

/-- The items that are read for items that were written. -/
def rereadItems? : List Value → Option (List Value)
  | [] => some []
  | v :: vs => do
    let w ← reread? v
    let ws ← rereadItems? vs
    return w :: ws

/-- The entries that are read for entries that were written, in the order in which they stand. -/
def rereadEntries? : List (String × Value) → Option (List (String × Value))
  | [] => some []
  | (k, v) :: es => do
    let w ← reread? v
    let others ← rereadEntries? es
    return (k, w) :: others

end

mutual

/-- **`v.nesting`** — how deep arrays and objects are nested in the wire form of a value. -/
def nesting : Value → Nat
  | bytes _ => 2
  | list items => nestingOfItems items + 2
  | tuple items => nestingOfItems items + 2
  | map entries => nestingOfEntries entries + 2
  | object _ fields => nestingOfEntries fields + 3
  | method receiver _ => nesting receiver + 2
  | unit => 1
  | bool _ => 1
  | int _ => 1
  | float _ => 1
  | str _ => 1
  | function _ => 1

/-- The greatest nesting of an item. -/
def nestingOfItems : List Value → Nat
  | [] => 0
  | v :: vs => max (nesting v) (nestingOfItems vs)

/-- The greatest nesting of the value of an entry. -/
def nestingOfEntries : List (String × Value) → Nat
  | [] => 0
  | (_, v) :: es => max (nesting v) (nestingOfEntries es)

end

/-- A reader that gives up on nothing but the nesting and the numbers, as long as it may enter no
more than `most` arrays and objects. -/
def ReadsBack (reader : Wire.Reader Value) (most : Nat) : Prop :=
  ∀ levels ≤ most, ∀ v : Value,
    reader levels v.toJson.reread = if v.nesting ≤ levels then v.reread? else none

/-- One level entered is one level less to follow. -/
theorem within_succ {α : Type} {n levels : Nat} {x : Option α} :
    (if n + 1 ≤ levels + 1 then x else none) = if n ≤ levels then x else none := by
  simp only [Nat.add_one_le_add_one_iff]

theorem nesting_pos (v : Value) : 0 < v.nesting := by
  cases v <;> simp [nesting]

end Value

namespace Json

theorem rereadNumber_int {i : Int} (least : Int64.minValue.toInt ≤ i) (greatest : i < UInt64.size) :
    rereadNumber (Decimal.signedDigits i) = .int i := by
  rw [rereadNumber, ← Numeral.text_ofInt, (Numeral.wellFormed_ofInt i).parse, Option.getD_some,
    Numeral.value_ofInt least greatest]

end Json

namespace Value

variable {inner : Wire.Reader Value} {levels most : Nat}

/-! ## Items and entries -/

theorem ReadsBack.items (h : ReadsBack inner most) (levels : Nat) (hlevels : levels ≤ most + 1)
    (vs : List Value) :
    Wire.items inner levels (.array (Json.rereadItems (itemsToJson vs))) =
      if nestingOfItems vs + 1 ≤ levels then rereadItems? vs else none := by
  cases levels with
  | zero => rfl
  | succ levels =>
    simp only [Wire.items, Nat.add_le_add_iff_right]
    induction vs with
    | nil => simp [itemsToJson, Json.rereadItems, nestingOfItems, rereadItems?]
    | cons v vs ih =>
      simp only [itemsToJson, Json.rereadItems, List.mapM_cons, h levels (by omega) v, ih,
        nestingOfItems, Nat.max_le, rereadItems?]
      by_cases first : v.nesting ≤ levels
      · by_cases others : nestingOfItems vs ≤ levels
        · simp only [first, others, and_self, if_true]
        · simp only [first, others, and_false, if_true, if_false]
          cases v.reread? <;> rfl
      · simp only [first, false_and, if_false]
        rfl

theorem ReadsBack.entries (h : ReadsBack inner most) (levels : Nat) (hlevels : levels ≤ most + 1)
    (es : List (String × Value)) :
    Wire.entries inner levels (.object (Json.rereadEntries (entriesToJson es))) =
      if nestingOfEntries es + 1 ≤ levels then (rereadEntries? es).map sortEntries else none := by
  cases levels with
  | zero => rfl
  | succ levels =>
    have each : ((Json.rereadEntries (entriesToJson es)).mapM fun e =>
        (inner levels e.2).map fun v => (e.1, v)) =
        if nestingOfEntries es ≤ levels then rereadEntries? es else none := by
      induction es with
      | nil => simp [entriesToJson, Json.rereadEntries, nestingOfEntries, rereadEntries?]
      | cons e es ih =>
        obtain ⟨k, v⟩ := e
        simp only [entriesToJson, Json.rereadEntries, List.mapM_cons, h levels (by omega) v, ih,
          nestingOfEntries, Nat.max_le, rereadEntries?]
        by_cases first : v.nesting ≤ levels
        · by_cases others : nestingOfEntries es ≤ levels
          · simp only [first, others, and_self, if_true]
            cases v.reread? <;> rfl
          · simp only [first, others, and_false, if_true, if_false]
            cases v.reread? <;> rfl
        · simp only [first, false_and, if_false]
          rfl
    simp only [Wire.entries, each, Nat.add_le_add_iff_right]
    split <;> rfl

/-! ## Kinds -/

theorem case_kind (k : Kind) : Wire.case Kind.all Kind.name levels (.string k.name) = some k := by
  cases k <;> rfl

theorem tagged?_tag (held : Bool) (k : Kind) (content : Json) :
    tagged? held (levels + 1) (tag k content) = some ⟨k, some content, held⟩ := by
  have kind : kindWord? held levels (.string k.name) = some k := case_kind k
  have type : Wire.valuesOf "type" [("type", .string k.name), ("value", content)] =
      [.string k.name] := rfl
  have value : Wire.valuesOf "value" [("type", .string k.name), ("value", content)] =
      [content] := rfl
  simp only [tagged?, tag, type, value]
  simp [kind]

theorem reread_tag (k : Kind) (content : Json) : (tag k content).reread = tag k content.reread :=
  rfl

/-! ## Contents -/

theorem floating_reread (x : Binary64) :
    Wire.floating levels (Json.rereadNumber (Decimal.jsonText x)) = x.reread? := by
  rw [Json.rereadNumber_jsonText]
  cases x.reread? <;> rfl

theorem integer_reread (n : Int64) :
    Wire.integer Int64.minValue.toInt Int64.maxValue.toInt levels
      (Json.rereadNumber (Decimal.signedDigits n.toInt)) = some n.toInt := by
  have least : Int64.minValue.toInt ≤ n.toInt := n.le_toInt
  have greatest : n.toInt ≤ Int64.maxValue.toInt := n.toInt_le
  have wide : Int64.maxValue.toInt < UInt64.size := by decide
  rw [Json.rereadNumber_int least (by omega), Wire.integer, if_pos ⟨least, greatest⟩]

theorem natural_reread {n bound : Nat} (h : n < bound) (fits : bound ≤ UInt64.size) :
    Wire.natural bound levels (Json.rereadNumber (Decimal.signedDigits n)) = some n := by
  have least : Int64.minValue.toInt ≤ (n : Int) := by
    have negative : Int64.minValue.toInt ≤ 0 := by decide
    omega
  rw [Json.rereadNumber_int least (by omega), Wire.natural, if_pos (by omega), Int.toNat_natCast]

theorem bytes_reread (bs : List UInt8) :
    Wire.items (Wire.natural 256) levels
        (.array (Json.rereadItems (bs.map fun b => .int b.toNat))) =
      if 1 ≤ levels then some (bs.map UInt8.toNat) else none := by
  cases levels with
  | zero => rfl
  | succ levels =>
    rw [Wire.items, if_pos (Nat.le_add_left 1 levels)]
    induction bs with
    | nil => rfl
    | cons b bs ih =>
      have first : Wire.natural 256 levels (Json.rereadNumber (Decimal.signedDigits b.toNat)) =
          some b.toNat := natural_reread b.toNat_lt (by decide)
      simp only [List.map_cons, Json.rereadItems, Json.reread, List.mapM_cons, first, ih]
      rfl

theorem objectOf?_reread (h : ReadsBack inner most) (hlevels : levels ≤ most + 2)
    (className : String) (es : List (String × Value)) :
    objectOf? (Wire.entries inner) levels (.object [("class", .string className),
        ("fields", .object (Json.rereadEntries (entriesToJson es)))]) =
      if nestingOfEntries es + 2 ≤ levels then
        (rereadEntries? es).map fun es => object className (sortEntries es)
      else none := by
  cases levels with
  | zero => rfl
  | succ levels =>
    have parts : Wire.fields true ["class", "fields"] (levels + 1) (.object
        [("class", .string className),
         ("fields", .object (Json.rereadEntries (entriesToJson es)))]) =
        some [some (.string className),
          some (.object (Json.rereadEntries (entriesToJson es)))] := rfl
    have fields := h.entries levels (by omega) es
    rw [objectOf?, parts, within_succ]
    simp only [Wire.required, Option.bind_some, fields, Wire.text]
    split
    · cases rereadEntries? es <;> rfl
    · rfl

theorem methodOf?_reread (h : ReadsBack inner most) (hlevels : levels ≤ most + 1)
    (receiver : Value) (name : String) :
    methodOf? inner levels (.object [("receiver", receiver.toJson.reread),
        ("name", .string name)]) =
      if receiver.nesting + 1 ≤ levels then receiver.reread?.map fun r => method r name
      else none := by
  cases levels with
  | zero => rfl
  | succ levels =>
    have parts : Wire.fields true ["receiver", "name"] (levels + 1) (.object
        [("receiver", receiver.toJson.reread), ("name", .string name)]) =
        some [some receiver.toJson.reread, some (.string name)] := rfl
    rw [methodOf?, parts, within_succ]
    simp only [Wire.required, Option.bind_some, h levels (by omega) receiver, Wire.text]
    split
    · cases receiver.reread? <;> rfl
    · rfl

/-! ## Values -/

/-- One level more of values inside values. -/
theorem ReadsBack.succ {depth : Nat} {held : Bool}
    (h : ReadsBack (ofJsonWithin? depth held) depth) :
    ReadsBack (ofJsonWithin? (depth + 1) held) (depth + 1) := by
  intro levels hlevels v
  cases levels with
  | zero =>
    have deep : ¬ v.nesting ≤ 0 := Nat.not_le_of_lt v.nesting_pos
    rw [if_neg deep]
    rfl
  | succ levels =>
    have content : ∀ k content, ofJsonWithin? (depth + 1) held (levels + 1) (tag k content) =
        ofContent? (ofJsonWithin? depth held) levels k (some content) := by
      intro k content
      simp [ofJsonWithin?, tagged?_tag]
    -- The object of the tag is one level, the content has the others.
    cases v with
    | unit => rfl
    | bool b =>
      rw [if_pos (by simp [nesting])]
      exact content .bool (.bool b)
    | int n =>
      rw [if_pos (by simp [nesting]), toJson, reread_tag, content]
      simp only [ofContent?, Json.reread, integer_reread, Option.map_some, Int64.ofInt_toInt,
        reread?]
    | float x =>
      rw [if_pos (by simp [nesting]), toJson, reread_tag, content]
      simp only [ofContent?, Json.reread, floating_reread, reread?]
    | str s =>
      rw [if_pos (by simp [nesting])]
      exact content .str (.string s)
    | function s =>
      rw [if_pos (by simp [nesting])]
      exact content .function (.string s)
    | bytes bs =>
      have back : (bs.map UInt8.toNat).map UInt8.ofNat = bs := by simp [Function.comp_def]
      rw [toJson, reread_tag, content, nesting, within_succ]
      simp only [ofContent?, Json.reread, bytes_reread, reread?]
      split
      · rw [Option.map_some, back]
      · rfl
    | list vs =>
      rw [toJson, reread_tag, content, nesting, within_succ]
      simp only [ofContent?, Json.reread, h.items levels (by omega) vs, reread?]
      split <;> rfl
    | tuple vs =>
      rw [toJson, reread_tag, content, nesting, within_succ]
      simp only [ofContent?, Json.reread, h.items levels (by omega) vs, reread?]
      split <;> rfl
    | map es =>
      rw [toJson, reread_tag, content, nesting, within_succ]
      simp only [ofContent?, Json.reread, h.entries levels (by omega) es, reread?]
      split
      · rw [Option.map_map]
        rfl
      · rfl
    | object c es =>
      rw [toJson, reread_tag, content, nesting, within_succ]
      exact objectOf?_reread h (by omega) c es
    | method r name =>
      rw [toJson, reread_tag, content, nesting, within_succ]
      exact methodOf?_reread h (by omega) r name

theorem readsBack_ofJsonWithin? (depth : Nat) (held : Bool) :
    ReadsBack (ofJsonWithin? depth held) depth := by
  induction depth with
  | zero =>
    intro levels hlevels v
    have deep : ¬ v.nesting ≤ levels := by
      have positive := v.nesting_pos
      omega
    rw [if_neg deep]
    rfl
  | succ depth ih => exact ih.succ

/-- **What is read for a value that was written.** A value comes back, as it is or with other
numbers in it, exactly if its document is nested no deeper than the reader follows and every number
in it is read as a number. -/
theorem ofJson?_reread (levels : Nat) (v : Value) :
    ofJson? levels v.toJson.reread = if v.nesting ≤ levels then v.reread? else none :=
  readsBack_ofJsonWithin? levels false levels (Nat.le_refl levels) v

/-! ## Values that come back -/

mutual

/-- **`v.floats`** — the floating-point numbers in a value. -/
def floats : Value → List Binary64
  | float x => [x]
  | list items => floatsOfItems items
  | tuple items => floatsOfItems items
  | map entries => floatsOfEntries entries
  | object _ fields => floatsOfEntries fields
  | method receiver _ => floats receiver
  | unit => []
  | bool _ => []
  | int _ => []
  | str _ => []
  | bytes _ => []
  | function _ => []

/-- The floating-point numbers in items. -/
def floatsOfItems : List Value → List Binary64
  | [] => []
  | v :: vs => floats v ++ floatsOfItems vs

/-- The floating-point numbers in entries. -/
def floatsOfEntries : List (String × Value) → List Binary64
  | [] => []
  | (_, v) :: es => floats v ++ floatsOfEntries es

end

mutual

/-- **`v.Ordered`** — all entries in a value stand in the order of their keys, each key once. -/
def Ordered : Value → Prop
  | list items => OrderedItems items
  | tuple items => OrderedItems items
  | map entries => (entries.map Prod.fst).Pairwise (· < ·) ∧ OrderedEntries entries
  | object _ fields => (fields.map Prod.fst).Pairwise (· < ·) ∧ OrderedEntries fields
  | method receiver _ => Ordered receiver
  | unit => True
  | bool _ => True
  | int _ => True
  | float _ => True
  | str _ => True
  | bytes _ => True
  | function _ => True

/-- All entries in the items stand in order. -/
def OrderedItems : List Value → Prop
  | [] => True
  | v :: vs => Ordered v ∧ OrderedItems vs

/-- All entries in the values of the entries stand in order. -/
def OrderedEntries : List (String × Value) → Prop
  | [] => True
  | (_, v) :: es => Ordered v ∧ OrderedEntries es

end

mutual

/-- A value is read again exactly if every number in it is finite. -/
theorem reread?_isSome_iff (v : Value) :
    v.reread?.isSome ↔ ∀ x ∈ v.floats, x.isFinite := by
  cases v with
  | float x => simpa [reread?, floats] using x.reread?_isSome_iff
  | list vs => simpa [reread?, floats] using rereadItems?_isSome_iff vs
  | tuple vs => simpa [reread?, floats] using rereadItems?_isSome_iff vs
  | map es => simpa [reread?, floats] using rereadEntries?_isSome_iff es
  | object c es => simpa [reread?, floats] using rereadEntries?_isSome_iff es
  | method r name => simpa [reread?, floats] using reread?_isSome_iff r
  | _ => simp [reread?, floats]

theorem rereadItems?_isSome_iff (vs : List Value) :
    (rereadItems? vs).isSome ↔ ∀ x ∈ floatsOfItems vs, x.isFinite := by
  cases vs with
  | nil => simp [rereadItems?, floatsOfItems]
  | cons v vs =>
    have first := reread?_isSome_iff v
    have others := rereadItems?_isSome_iff vs
    simp only [rereadItems?, floatsOfItems, List.mem_append, or_imp, forall_and, ← first, ← others]
    cases v.reread? <;> cases rereadItems? vs <;> simp

theorem rereadEntries?_isSome_iff (es : List (String × Value)) :
    (rereadEntries? es).isSome ↔ ∀ x ∈ floatsOfEntries es, x.isFinite := by
  cases es with
  | nil => simp [rereadEntries?, floatsOfEntries]
  | cons e es =>
    obtain ⟨k, v⟩ := e
    have first := reread?_isSome_iff v
    have others := rereadEntries?_isSome_iff es
    simp only [rereadEntries?, floatsOfEntries, List.mem_append, or_imp, forall_and, ← first,
      ← others]
    cases v.reread? <;> cases rereadEntries? es <;> simp

end

theorem keys_of_rereadEntries? {es fs : List (String × Value)} (h : rereadEntries? es = some fs) :
    fs.map Prod.fst = es.map Prod.fst := by
  induction es generalizing fs with
  | nil =>
    cases h
    rfl
  | cons e es ih =>
    obtain ⟨k, v⟩ := e
    simp only [rereadEntries?, Option.bind_eq_bind, Option.bind_eq_some_iff] at h
    obtain ⟨w, -, gs, others, ⟨⟩⟩ := h
    simp [ih others]

/-- Entries that stand in order are put in order as they are. -/
theorem rereadEntries?_sorted_iff {es : List (String × Value)} {f : List (String × Value) → Value}
    (hf : ∀ es fs, f es = f fs → es = fs) (ordered : (es.map Prod.fst).Pairwise (· < ·)) :
    (rereadEntries? es).map (fun fs => f (sortEntries fs)) = some (f es) ↔
      rereadEntries? es = some es := by
  cases others : rereadEntries? es with
  | none => simp
  | some fs =>
    have keys := keys_of_rereadEntries? others
    have sorted : sortEntries fs = fs := sortEntries_eq_self (by rwa [keys])
    simp only [Option.map_some, Option.some.injEq, sorted]
    exact ⟨hf _ _, congrArg f⟩

mutual

/-- A value with its entries in order comes back as it was exactly if every number in it does. -/
theorem reread?_eq_self_iff {v : Value} (ordered : v.Ordered) :
    v.reread? = some v ↔ ∀ x ∈ v.floats, x.reread? = some x := by
  cases v with
  | float x => simp [reread?, floats]
  | list vs =>
    have items : OrderedItems vs := ordered
    simpa [reread?, floats] using rereadItems?_eq_self_iff items
  | tuple vs =>
    have items : OrderedItems vs := ordered
    simpa [reread?, floats] using rereadItems?_eq_self_iff items
  | map es =>
    rw [floats, ← rereadEntries?_eq_self_iff ordered.2]
    exact rereadEntries?_sorted_iff (by simp) ordered.1
  | object c es =>
    rw [floats, ← rereadEntries?_eq_self_iff ordered.2]
    exact rereadEntries?_sorted_iff (by simp) ordered.1
  | method r name => simpa [reread?, floats] using reread?_eq_self_iff (v := r) ordered
  | _ => simp [reread?, floats]

theorem rereadItems?_eq_self_iff {vs : List Value} (ordered : OrderedItems vs) :
    rereadItems? vs = some vs ↔ ∀ x ∈ floatsOfItems vs, x.reread? = some x := by
  cases vs with
  | nil => simp [rereadItems?, floatsOfItems]
  | cons v vs =>
    have first := reread?_eq_self_iff ordered.1
    have others := rereadItems?_eq_self_iff ordered.2
    simp only [rereadItems?, floatsOfItems, List.mem_append, or_imp, forall_and, ← first, ← others]
    cases v.reread? <;> cases rereadItems? vs <;> simp

theorem rereadEntries?_eq_self_iff {es : List (String × Value)} (ordered : OrderedEntries es) :
    rereadEntries? es = some es ↔ ∀ x ∈ floatsOfEntries es, x.reread? = some x := by
  cases es with
  | nil => simp [rereadEntries?, floatsOfEntries]
  | cons e es =>
    obtain ⟨k, v⟩ := e
    have first := reread?_eq_self_iff ordered.1
    have others := rereadEntries?_eq_self_iff ordered.2
    simp only [rereadEntries?, floatsOfEntries, List.mem_append, or_imp, forall_and, ← first,
      ← others]
    cases v.reread? <;> cases rereadEntries? es <;> simp

end

end Value

end CapabilityGate
