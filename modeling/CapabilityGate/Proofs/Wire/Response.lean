import CapabilityGate.Proofs.Wire.Value
import CapabilityGate.Wire.Outcome

/-!
# Responses read back

The one text that a worker process sends carries its result and its denials. Faults and panics
always arrive; a value arrives if `Value.ofJson?_reread` lets it; the records arrive if the clock of
each can be written and read. `Response.read?_write` puts this together: the text is read as a whole
or not at all.
-/
namespace CapabilityGate

namespace Wire

theorem items_reread {α : Type} {f : α → Json} {reader : Reader α} {levels : Nat}
    (h : ∀ a, reader levels (f a).reread = some a) (as : List α) :
    items reader (levels + 1) (.array (Json.rereadItems (as.map f))) = some as := by
  rw [items]
  induction as with
  | nil => rfl
  | cons a as ih =>
    simp only [List.map_cons, Json.rereadItems, List.mapM_cons, h a, ih]
    rfl

end Wire

/-! ## Faults -/

/-- **Every fault comes back.** -/
theorem Fault.ofJson?_reread (levels : Nat) (f : Fault) :
    ofJson? (levels + 3) f.toJson.reread = some f := by
  have strings : ∀ ss : List String,
      Wire.items Wire.text (levels + 1) (.array (Json.rereadItems (ss.map Json.string))) =
        some ss :=
    Wire.items_reread fun s => rfl
  have capabilities : ∀ cs : List Capability, Wire.items Capability.ofJson? (levels + 1)
      (.array (Json.rereadItems (cs.map Capability.toJson))) = some cs :=
    Wire.items_reread fun c => rfl
  cases f with
  | type m => rfl
  | failed m => rfl
  | resourceDenied c r => rfl
  | exhausted limit => cases limit <;> rfl
  | security symbol origin sources =>
    have data : ofJson? (levels + 3) (security symbol origin sources).toJson.reread =
        (Wire.items Wire.text (levels + 1)
          (.array (Json.rereadItems (sources.map Json.string)))).bind fun a =>
            some (security symbol origin a) := rfl
    rw [data, strings]
    rfl
  | capability symbol missing held =>
    have data : ofJson? (levels + 3) (capability symbol missing held).toJson.reread =
        (Wire.items Capability.ofJson? (levels + 1)
          (.array (Json.rereadItems (missing.map Capability.toJson)))).bind fun m =>
          (Wire.items Capability.ofJson? (levels + 1)
            (.array (Json.rereadItems (held.map Capability.toJson)))).bind fun h =>
            some (capability symbol m h) := rfl
    rw [data, capabilities, capabilities]
    rfl

/-! ## Results -/

namespace Response

/-- The arrays and objects that a value in a response may be nested in: two are the response
itself and its result. -/
def valueLevels : Nat := Wire.nestingLimit - 2

/-- **`rereadResult? result`** — what is read for the result of a response. -/
def rereadResult? : Except Fault Value → Option (Except Fault Value)
  | .ok v => if v.nesting ≤ valueLevels then v.reread?.map .ok else none
  | .error f => some (.error f)

theorem rereadResult?_ok_iff {v : Value} {result : Except Fault Value} :
    rereadResult? (.ok v) = some result ↔
      v.nesting ≤ valueLevels ∧ ∃ u, v.reread? = some u ∧ result = .ok u := by
  rw [rereadResult?]
  split
  · rename_i shallow
    rw [Option.map_eq_some_iff]
    exact ⟨fun ⟨u, reread, same⟩ => ⟨shallow, u, reread, same.symm⟩,
      fun ⟨_, u, reread, same⟩ => ⟨u, reread, same.symm⟩⟩
  · rename_i deep
    simp [deep]

theorem resultOf?_reread (result : Except Fault Value) :
    resultOf? (valueLevels + 1) (resultToJson result).reread = rereadResult? result := by
  cases result with
  | ok v =>
    have data : resultOf? (valueLevels + 1) (resultToJson (.ok v)).reread =
        (Value.ofJson? valueLevels v.toJson.reread).map .ok := rfl
    rw [data, Value.ofJson?_reread, rereadResult?]
    split <;> rfl
  | error f =>
    have data : resultOf? (valueLevels + 1) (resultToJson (.error f)).reread =
        (Fault.ofJson? valueLevels f.toJson.reread).map .error := rfl
    rw [data, show valueLevels = 122 + 3 from rfl, Fault.ofJson?_reread]
    rfl

end Response

/-! ## Records -/

namespace Record

/-- **`r.Writable`** — the clock of a record can be written and read: it is neither before the epoch
nor beyond the seconds of a signed word. -/
def Writable (r : Record) : Prop := 0 ≤ r.timestamp ∧ r.seconds < Wire.epochSeconds

instance (r : Record) : Decidable r.Writable :=
  inferInstanceAs (Decidable (_ ∧ _))

/-- The wire form of a record that is not from before the epoch. -/
def wireForm (r : Record) : Json :=
  .object
    [("capability_type", r.capability.toJson),
     ("resource", Wire.optionToJson Json.string r.resource),
     ("operation", .string r.operation),
     ("timestamp", Wire.timeToJson "secs_since_epoch" "nanos_since_epoch" r.timestamp.toNat)]

theorem mapM_toJson? (rs : List Record) :
    rs.mapM toJson? = if ∀ r ∈ rs, 0 ≤ r.timestamp then some (rs.map wireForm) else none := by
  induction rs with
  | nil => simp
  | cons r rs ih =>
    simp only [List.mapM_cons, ih, List.forall_mem_cons, toJson?]
    by_cases early : r.timestamp < 0
    · have late : ¬ 0 ≤ r.timestamp := by omega
      simp [early, late]
    · have late : 0 ≤ r.timestamp := by omega
      simp only [early, late, if_false, true_and]
      by_cases others : ∀ r ∈ rs, 0 ≤ r.timestamp
      · rw [if_pos others, if_pos others]
        rfl
      · rw [if_neg others, if_neg others]
        rfl

theorem natural_reread_large {levels n bound : Nat} (h : UInt64.size ≤ n) :
    Wire.natural bound levels (Json.rereadNumber (Decimal.signedDigits n)) = none := by
  have text := (Json.Numeral.wellFormed_ofInt n).parse
  rw [Json.Numeral.text_ofInt] at text
  rw [Json.rereadNumber, text, Option.getD_some]
  cases value : (Json.Numeral.ofInt n).value with
  | int k => exact absurd value (Json.Numeral.value_ofInt_ne n (by omega))
  | _ => rfl

/-- A time is read again if its seconds fit. -/
theorem timeOf?_reread (levels n : Nat) :
    timeOf? (levels + 1)
        (Wire.timeToJson "secs_since_epoch" "nanos_since_epoch" n).reread =
      if n / nanosPerSecond < Wire.epochSeconds then some n else none := by
  have members : ∀ s k : Json, Wire.fields false ["secs_since_epoch", "nanos_since_epoch"]
      (levels + 1) (.object [("secs_since_epoch", s), ("nanos_since_epoch", k)]) =
        some [some s, some k] := fun s k => by simp [Wire.fields, Wire.valuesOf]
  have data : timeOf? (levels + 1)
      (Wire.timeToJson "secs_since_epoch" "nanos_since_epoch" n).reread =
      (Wire.natural UInt64.size levels
        (Json.rereadNumber (Decimal.signedDigits (n / nanosPerSecond : Nat)))).bind fun s =>
        (Wire.natural UInt32.size levels
          (Json.rereadNumber (Decimal.signedDigits (n % nanosPerSecond : Nat)))).bind fun k =>
          if s + k / nanosPerSecond < Wire.epochSeconds then some (s * nanosPerSecond + k)
          else none := by
    rw [timeOf?, Wire.timeToJson, Json.reread, Json.rereadEntries, Json.rereadEntries,
      Json.rereadEntries, Json.reread, Json.reread, Wire.time, members]
    rfl
  have short : n % nanosPerSecond < nanosPerSecond := Nat.mod_lt _ (by decide)
  have nanos : n % nanosPerSecond < UInt32.size := Nat.lt_trans short (by decide)
  rw [data]
  by_cases fits : n / nanosPerSecond < UInt64.size
  · have whole : n / nanosPerSecond * nanosPerSecond + n % nanosPerSecond = n := by
      rw [Nat.mul_comm]
      exact Nat.div_add_mod n nanosPerSecond
    rw [Value.natural_reread fits (Nat.le_refl _), Option.bind_some,
      Value.natural_reread nanos (by decide), Option.bind_some, Nat.div_eq_of_lt short,
      Nat.add_zero, whole]
  · have late : ¬ n / nanosPerSecond < Wire.epochSeconds := fun h =>
      fits (Nat.lt_trans h (by decide))
    rw [if_neg late, natural_reread_large (Nat.le_of_not_lt fits)]
    rfl

theorem ofJson?_reread (levels : Nat) {r : Record} (h : 0 ≤ r.timestamp) :
    ofJson? (levels + 2) r.wireForm.reread =
      if r.seconds < Wire.epochSeconds then some r else none := by
  have members : ∀ c s o t : Json,
      Wire.fields true ["capability_type", "resource", "operation", "timestamp"] (levels + 2)
        (.object [("capability_type", c), ("resource", s), ("operation", o), ("timestamp", t)]) =
          some [some c, some s, some o, some t] := fun c s o t => by
    simp [Wire.fields, Wire.valuesOf]
  have data : ofJson? (levels + 2) r.wireForm.reread =
      (Wire.missing Wire.text (levels + 1)
        (some (Wire.optionToJson Json.string r.resource).reread)).bind fun resource =>
        (timeOf? (levels + 1) (Wire.timeToJson "secs_since_epoch" "nanos_since_epoch"
          r.timestamp.toNat).reread).bind fun t =>
          some ⟨r.capability, resource, r.operation, t⟩ := by
    rw [wireForm, Json.reread, Json.rereadEntries, Json.rereadEntries, Json.rereadEntries,
      Json.rereadEntries, Json.rereadEntries, ofJson?, members]
    rfl
  have resource : Wire.missing Wire.text (levels + 1)
      (some (Wire.optionToJson Json.string r.resource).reread) = some r.resource := by
    cases r.resource <;> rfl
  rw [data, resource, Option.bind_some, timeOf?_reread, seconds]
  split
  · rw [Option.bind_some, Int.toNat_of_nonneg h]
  · rfl

end Record

/-! ## Responses -/

namespace Response

theorem violations_reread (levels : Nat) {rs : List Record} (h : ∀ r ∈ rs, 0 ≤ r.timestamp) :
    Wire.items Record.ofJson? (levels + 3) (.array (Json.rereadItems (rs.map Record.wireForm))) =
      if ∀ r ∈ rs, r.seconds < Wire.epochSeconds then some rs else none := by
  rw [Wire.items]
  induction rs with
  | nil => rfl
  | cons r rs ih =>
    obtain ⟨first, others⟩ := List.forall_mem_cons.mp h
    simp only [List.map_cons, Json.rereadItems, List.mapM_cons, ih others,
      Record.ofJson?_reread levels first, List.forall_mem_cons]
    by_cases now : r.seconds < Wire.epochSeconds
    · simp only [now, if_true, true_and]
      by_cases later : ∀ r ∈ rs, r.seconds < Wire.epochSeconds
      · rw [if_pos later, if_pos later]
        rfl
      · rw [if_neg later, if_neg later]
        rfl
    · simp only [now, if_false, false_and]
      rfl

/-- What is written is never the empty text. -/
theorem compact_ne_empty (j : Json) : j.compact ≠ "" := by
  obtain ⟨c, cs, text, -⟩ := Json.exists_cons_of_write 0 j
  intro empty
  have characters := congrArg String.toList empty
  rw [Json.compact, String.toList_ofList, text] at characters
  cases characters

/-- **A response is read as a whole or not at all.** It is read exactly if its result comes back and
all of its records can be written and read; then the panic and the records are as they were, each
once and in order. -/
theorem read?_write (r : Response) :
    read? r.write =
      if ∀ v ∈ r.violations, v.Writable then
        (rereadResult? r.result).map fun result => ⟨result, r.panicked, r.violations⟩
      else none := by
  by_cases early : ∀ v ∈ r.violations, 0 ≤ v.timestamp
  · have json : r.toJson? = some (.object [("result", resultToJson r.result),
        ("panicked", Wire.optionToJson Json.string r.panicked),
        ("violations", .array (r.violations.map Record.wireForm))]) := by
      rw [toJson?, Record.mapM_toJson?, if_pos early]
      rfl
    have data : Wire.read ofJson? r.write =
        (resultOf? (valueLevels + 1) (resultToJson r.result).reread).bind fun result =>
          (Wire.missing Wire.text (valueLevels + 1)
            (some (Wire.optionToJson Json.string r.panicked).reread)).bind fun panicked =>
            (Wire.items Record.ofJson? (valueLevels + 1)
              (.array (Json.rereadItems (r.violations.map Record.wireForm)))).bind
                fun violations => some ⟨result, panicked, violations⟩ := by
      rw [Wire.read, write, json, Json.parse_compact]
      rfl
    have panicked : Wire.missing Wire.text (valueLevels + 1)
        (some (Wire.optionToJson Json.string r.panicked).reread) = some r.panicked := by
      cases r.panicked <;> rfl
    have writable : (∀ v ∈ r.violations, v.Writable) ↔
        ∀ v ∈ r.violations, v.seconds < Wire.epochSeconds :=
      ⟨fun h v hv => (h v hv).2, fun h v hv => ⟨early v hv, h v hv⟩⟩
    rw [read?, data, resultOf?_reread, panicked, show valueLevels + 1 = 123 + 3 from rfl,
      violations_reread 123 early]
    by_cases all : ∀ v ∈ r.violations, v.seconds < Wire.epochSeconds
    · rw [if_pos all, if_pos (writable.mpr all)]
      cases rereadResult? r.result <;> rfl
    · rw [if_neg all, if_neg fun h => all (writable.mp h)]
      cases rereadResult? r.result <;> rfl
  · have json : r.toJson? = none := by
      rw [toJson?, Record.mapM_toJson?, if_neg early]
      rfl
    have unwritable : ¬ ∀ v ∈ r.violations, v.Writable := fun h => early fun v hv => (h v hv).1
    rw [if_neg unwritable, write, json]
    rfl

/-- Nothing is written exactly if some record is from before the epoch. -/
theorem write_eq_empty_iff (r : Response) :
    r.write = "" ↔ ∃ v ∈ r.violations, v.timestamp < 0 := by
  by_cases early : ∀ v ∈ r.violations, 0 ≤ v.timestamp
  · have some : ∃ j, r.toJson? = some j := by
      rw [toJson?, Record.mapM_toJson?, if_pos early]
      exact ⟨_, rfl⟩
    obtain ⟨j, json⟩ := some
    rw [write, json]
    refine ⟨fun h => absurd h (compact_ne_empty j), ?_⟩
    rintro ⟨v, hv, negative⟩
    exact absurd (early v hv) (by omega)
  · have none : r.toJson? = none := by
      rw [toJson?, Record.mapM_toJson?, if_neg early]
      rfl
    rw [write, none]
    simpa using early

end Response

end CapabilityGate
