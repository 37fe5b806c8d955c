import CapabilityGate.Proofs.Wire.Response

/-!
# The codec of values and faults

The nesting that a reader counts is one of documents, not of values: a list within a list is four
levels deep. `Json.nesting` measures it on the document, and `Value.nesting_toJson` finds it back in
the value. So `codec_exact` can say for every value without floating-point numbers, and for every
fault, what is read for its text: the very same, or nothing if the document is nested too deep.
-/
namespace CapabilityGate

/-! ## The nesting of documents -/

namespace Json

mutual

/-- **`j.nesting`** — how deep arrays and objects are nested in a document. -/
def nesting : Json → Nat
  | array items => nestingOfItems items + 1
  | object entries => nestingOfEntries entries + 1
  | null => 0
  | bool _ => 0
  | int _ => 0
  | float _ => 0
  | string _ => 0
  | unreadable => 0

/-- The greatest nesting of an item. -/
def nestingOfItems : List Json → Nat
  | [] => 0
  | item :: items => max (nesting item) (nestingOfItems items)

/-- The greatest nesting of the value of an entry. -/
def nestingOfEntries : List (String × Json) → Nat
  | [] => 0
  | (_, value) :: entries => max (nesting value) (nestingOfEntries entries)

end

/-- Items that are neither arrays nor objects. -/
theorem nestingOfItems_map {α : Type} {f : α → Json} (flat : ∀ a, (f a).nesting = 0)
    (as : List α) : nestingOfItems (as.map f) = 0 := by
  induction as with
  | nil => rfl
  | cons a as ih => rw [List.map_cons, nestingOfItems, flat, ih, Nat.max_self]

end Json

namespace Value

theorem nesting_tag (kind : Kind) (content : Json) :
    (tag kind content).nesting = content.nesting + 1 := by
  simp [tag, Json.nesting, Json.nestingOfEntries]

mutual

/-- **The nesting of a value is that of its document.** -/
theorem nesting_toJson (v : Value) : v.toJson.nesting = v.nesting := by
  cases v with
  | unit => rfl
  | bytes bs =>
    rw [toJson, nesting_tag, Json.nesting, Json.nestingOfItems_map fun _ => rfl, nesting]
  | list vs => rw [toJson, nesting_tag, Json.nesting, nestingOfItems_toJson vs, nesting]
  | tuple vs => rw [toJson, nesting_tag, Json.nesting, nestingOfItems_toJson vs, nesting]
  | map es => rw [toJson, nesting_tag, Json.nesting, nestingOfEntries_toJson es, nesting]
  | object c es =>
    rw [toJson, nesting_tag, nesting]
    simp [Json.nesting, Json.nestingOfEntries, nestingOfEntries_toJson es]
  | method r name =>
    rw [toJson, nesting_tag, nesting]
    simp [Json.nesting, Json.nestingOfEntries, nesting_toJson r]
  | _ => rw [toJson, nesting_tag, Json.nesting, nesting]

theorem nestingOfItems_toJson (vs : List Value) :
    Json.nestingOfItems (itemsToJson vs) = nestingOfItems vs := by
  cases vs with
  | nil => rfl
  | cons v vs =>
    rw [itemsToJson, Json.nestingOfItems, nesting_toJson v, nestingOfItems_toJson vs,
      nestingOfItems]

theorem nestingOfEntries_toJson (es : List (String × Value)) :
    Json.nestingOfEntries (entriesToJson es) = nestingOfEntries es := by
  cases es with
  | nil => rfl
  | cons e es =>
    obtain ⟨k, v⟩ := e
    rw [entriesToJson, Json.nestingOfEntries, nesting_toJson v, nestingOfEntries_toJson es,
      nestingOfEntries]

end

/-- A list within a list is two levels further in. -/
theorem nesting_nest (n : Nat) (v : Value) : (nest n v).nesting = v.nesting + 2 * n := by
  induction n generalizing v with
  | zero => rfl
  | succ n ih =>
    rw [nest, ih, nesting, nestingOfItems, nestingOfItems]
    omega

end Value

/-- The document of a fault has its name, its data, and perhaps a list in the data. -/
theorem Fault.nesting_toJson_le (f : Fault) : f.toJson.nesting ≤ 3 := by
  have strings : ∀ ss : List String, Json.nestingOfItems (ss.map Json.string) = 0 :=
    Json.nestingOfItems_map fun _ => rfl
  have capabilities : ∀ cs : List Capability, Json.nestingOfItems (cs.map Capability.toJson) = 0 :=
    Json.nestingOfItems_map fun _ => rfl
  cases f <;>
    simp [toJson, Json.nesting, Json.nestingOfEntries, Capability.toJson, strings, capabilities]

/-! ## What is read for a text -/

/-- A value without floating-point numbers has no numbers that could come back as others. -/
theorem Value.reread?_eq_self {v : Value} (ordered : v.Ordered) (exact : v.floats = []) :
    v.reread? = some v :=
  (reread?_eq_self_iff ordered).mpr (by simp [exact])

/-- What is read for the text of a value, whatever value it is. -/
theorem Value.read_compact (v : Value) :
    Wire.read ofJson? v.toJson.compact =
      if v.toJson.nesting ≤ Wire.nestingLimit then v.reread? else none := by
  rw [Wire.read, Json.parse_compact, Option.bind_some, ofJson?_reread, nesting_toJson]

/-- **Every fault is read as itself.** -/
theorem Fault.read_compact (f : Fault) : Wire.read ofJson? f.toJson.compact = some f := by
  rw [Wire.read, Json.parse_compact, Option.bind_some]
  exact ofJson?_reread 124 f

namespace Response

/-- A result stands in its response, one level further in. -/
theorem rereadResult?_eq {result : Except Fault Value}
    (exact : ∀ v, result = .ok v → v.Ordered ∧ v.floats = []) :
    rereadResult? result =
      if (resultToJson result).nesting < Wire.nestingLimit then some result else none := by
  cases result with
  | ok v =>
    obtain ⟨ordered, floats⟩ := exact v rfl
    have levels : (resultToJson (.ok v)).nesting < Wire.nestingLimit ↔
        v.nesting ≤ valueLevels := by
      simp only [resultToJson, Json.nesting, Json.nestingOfEntries, v.nesting_toJson, Nat.max_zero,
        Wire.nestingLimit, valueLevels]
      omega
    simp only [rereadResult?, v.reread?_eq_self ordered floats, levels, Option.map_some]
  | error f =>
    have shallow : (resultToJson (.error f)).nesting < Wire.nestingLimit := by
      have data := f.nesting_toJson_le
      simp only [resultToJson, Json.nesting, Json.nestingOfEntries, Nat.max_zero, Wire.nestingLimit]
      omega
    rw [if_pos shallow, rereadResult?]

end Response

/-- **The codec gives back what it was given.** For every value whose entries are in order and which
has no floating-point numbers in it, its text is read as the very same value, as long as its document
is nested within the limit. Any value beyond the limit is refused. Every fault is read as the very
same fault. And a response, which carries a value or a fault one level further in, is read as the very
same response or is refused, by the same limit, if the times of its records can be written. -/
theorem codec_exact :
    (∀ v : Value, v.Ordered → v.floats = [] → v.toJson.nesting ≤ Wire.nestingLimit →
      Wire.read Value.ofJson? v.toJson.compact = some v) ∧
    (∀ v : Value, Wire.nestingLimit < v.toJson.nesting →
      Wire.read Value.ofJson? v.toJson.compact = none) ∧
    (∀ f : Fault, Wire.read Fault.ofJson? f.toJson.compact = some f) ∧
    ∀ r : Response, (∀ v, r.result = .ok v → v.Ordered ∧ v.floats = []) →
      (∀ d ∈ r.violations, d.Writable) →
      Response.read? r.write =
        if (Response.resultToJson r.result).nesting < Wire.nestingLimit then some r else none := by
  refine ⟨fun v ordered floats within => ?_, fun v beyond => ?_, Fault.read_compact,
    fun r exact writable => ?_⟩
  · rw [v.read_compact, if_pos within, v.reread?_eq_self ordered floats]
  · rw [v.read_compact, if_neg (Nat.not_le_of_lt beyond)]
  · rw [r.read?_write, if_pos writable, Response.rereadResult?_eq exact]
    split <;> rfl

/-- A map whose keys are the words that mark kinds and contents. -/
def markedMap : Value :=
  .map [("type", .str "int"), ("value", .method (.object "type" [("value", .int (-1))]) "\"")]

/-- The marks of a document are not taken for those inside a value; and a value within 64 lists is
one level too deep. -/
theorem codec_exact_markedMap :
    markedMap.Ordered ∧ markedMap.floats = [] ∧ markedMap.toJson.nesting ≤ Wire.nestingLimit ∧
    Wire.read Value.ofJson? markedMap.toJson.compact = some markedMap ∧
    Wire.nestingLimit < (Value.nest 64 .unit).toJson.nesting ∧
    Wire.read Value.ofJson? (Value.nest 64 .unit).toJson.compact = none ∧
    Response.read? (Response.write ⟨.ok markedMap, none, []⟩) =
      some ⟨.ok markedMap, none, []⟩ := by
  have ordered : markedMap.Ordered :=
    ⟨by decide, trivial, ⟨by decide, trivial, trivial⟩, trivial⟩
  have floats : markedMap.floats = [] := rfl
  have within : markedMap.toJson.nesting ≤ Wire.nestingLimit := by decide
  have beyond : Wire.nestingLimit < (Value.nest 64 .unit).toJson.nesting := by
    rw [Value.nesting_toJson, Value.nesting_nest]
    decide
  obtain ⟨value, deep, -, response⟩ := codec_exact
  refine ⟨ordered, floats, within, value markedMap ordered floats within, beyond, deep _ beyond, ?_⟩
  rw [response _ (fun v hv => ?_) (by simp), if_pos (by decide)]
  obtain rfl : markedMap = v := Except.ok.inj hv
  exact ⟨ordered, floats⟩

end CapabilityGate
