import CapabilityGate.Audit.Record
import CapabilityGate.Wire.Fault
import CapabilityGate.Wire.Value

/-!
# Records, outcomes and responses on the wire

Times are records of whole seconds and nanoseconds; nanoseconds beyond a second are carried over,
and a time whose seconds do not fit is refused. A record of a denial from before the epoch has no
wire form. A response is what a worker process sends back: the result of its unit, the text of a
panic if there was one, and the denials that were logged.
-/
namespace CapabilityGate

namespace Wire

/-- A time as its whole seconds and the nanoseconds after them, under the given names. -/
def timeToJson (seconds nanos : String) (n : Nat) : Json :=
  .object [(seconds, .int (n / nanosPerSecond)), (nanos, .int (n % nanosPerSecond))]

/-- A time in nanoseconds with less than `bound` whole seconds, under the given names. -/
def time (seconds nanos : String) (bound : Nat) : Reader Nat
  | levels + 1, j =>
    match fields false [seconds, nanos] (levels + 1) j with
    | some [s, n] => do
      let s ← required (natural UInt64.size) levels s
      let n ← required (natural UInt32.size) levels n
      if s + n / nanosPerSecond < bound then some (s * nanosPerSecond + n) else none
    | _ => none
  | _, _ => none

/-- The seconds since the epoch that a time can have: those that a signed word holds. -/
def epochSeconds : Nat := Int64.minValue.toInt.natAbs

/-- The wire form of something that may be missing. -/
def optionToJson {α : Type} (f : α → Json) : Option α → Json
  | none => .null
  | some a => f a

end Wire

/-- The wire form of a length of time. -/
def Duration.toJson (d : Duration) : Json := Wire.timeToJson "secs" "nanos" d.nanos

/-- Reads a length of time. -/
def Duration.ofJson? : Wire.Reader Duration := fun levels j =>
  (Wire.time "secs" "nanos" UInt64.size levels j).map Duration.mk

namespace Record

/-- The wire form of a record, if it is not from before the epoch. -/
def toJson? (r : Record) : Option Json :=
  if r.timestamp < 0 then none
  else some (.object
    [("capability_type", r.capability.toJson),
     ("resource", Wire.optionToJson Json.string r.resource),
     ("operation", .string r.operation),
     ("timestamp", Wire.timeToJson "secs_since_epoch" "nanos_since_epoch" r.timestamp.toNat)])

/-- Reads the time of a record. -/
def timeOf? : Wire.Reader Nat := Wire.time "secs_since_epoch" "nanos_since_epoch" Wire.epochSeconds

/-- Reads a record. -/
def ofJson? : Wire.Reader Record
  | levels + 1, j =>
    let names := ["capability_type", "resource", "operation", "timestamp"]
    match Wire.fields true names (levels + 1) j with
    | some [c, r, o, t] => do
      let c ← Wire.required Capability.ofJson? levels c
      let r ← Wire.missing Wire.text levels r
      let o ← Wire.required Wire.text levels o
      let t ← Wire.required timeOf? levels t
      return ⟨c, r, o, t⟩
    | _ => none
  | _, _ => none

end Record

namespace Failure

/-- The wire form of a failure. -/
def toJson (f : Failure) : Json :=
  .object [("kind", .string f.kind.name), ("message", .string f.message),
    ("source", Wire.optionToJson Fault.toJson f.source)]

/-- Reads a failure. -/
def ofJson? : Wire.Reader Failure
  | levels + 1, j =>
    match Wire.fields true ["kind", "message", "source"] (levels + 1) j with
    | some [k, m, s] => do
      let k ← Wire.required FailureKind.ofJson? levels k
      let m ← Wire.required Wire.text levels m
      let s ← Wire.missing Fault.ofJson? levels s
      return ⟨k, m, s⟩
    | _ => none
  | _, _ => none

end Failure

namespace Outcome

/-- The wire form of an outcome. -/
def toJson (o : Outcome) : Json :=
  .object [("success", .bool o.success), ("value", Wire.optionToJson Value.toJson o.value),
    ("error", Wire.optionToJson Failure.toJson o.failure), ("elapsed", o.elapsed.toJson)]

/-- Reads an outcome. -/
def ofJson? : Wire.Reader Outcome
  | levels + 1, j =>
    match Wire.fields true ["success", "value", "error", "elapsed"] (levels + 1) j with
    | some [s, v, e, t] => do
      let s ← Wire.required Wire.boolean levels s
      let v ← Wire.missing Value.ofJson? levels v
      let e ← Wire.missing Failure.ofJson? levels e
      let t ← Wire.required Duration.ofJson? levels t
      return ⟨s, v, e, t⟩
    | _ => none
  | _, _ => none

end Outcome

/-- What a worker process sends back. -/
structure Response where
  result : Except Fault Value
  panicked : Option String
  violations : List Record
deriving Repr

namespace Response

/-- The wire form of a result. -/
def resultToJson : Except Fault Value → Json
  | .ok v => .object [("Ok", v.toJson)]
  | .error f => .object [("Err", f.toJson)]

/-- Reads a result. -/
def resultOf? : Wire.Reader (Except Fault Value) := fun levels j => do
  let (name, data) ← Wire.tagged levels j
  if name = "Ok" then (Value.ofJson? (levels - 1) data).map .ok
  else if name = "Err" then (Fault.ofJson? (levels - 1) data).map .error
  else none

/-- The wire form of a response, if all its records have one. -/
def toJson? (r : Response) : Option Json :=
  (r.violations.mapM Record.toJson?).map fun violations =>
    .object [("result", resultToJson r.result),
      ("panicked", Wire.optionToJson Json.string r.panicked), ("violations", .array violations)]

/-- Reads a response. -/
def ofJson? : Wire.Reader Response
  | levels + 1, j =>
    match Wire.fields true ["result", "panicked", "violations"] (levels + 1) j with
    | some [r, p, v] => do
      let r ← Wire.required resultOf? levels r
      let p ← Wire.missing Wire.text levels p
      let v ← Wire.required (Wire.items Record.ofJson?) levels v
      return ⟨r, p, v⟩
    | _ => none
  | _, _ => none

/-- The text that a worker process writes; nothing if the response has no wire form. -/
def write (r : Response) : String :=
  match r.toJson? with
  | some j => j.compact
  | none => ""

/-- Reads the text that a worker process wrote. -/
def read? (s : String) : Option Response := Wire.read ofJson? s

end Response

end CapabilityGate
