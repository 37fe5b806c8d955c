import CapabilityGate.Audit.Record

/-!
# What a payload says of its record

A payload is the bytes of one text, a zero byte, and twelve bytes for the time. The text is the
three texts of the record with zero characters between them, so two records with the same text and
the same time have the same payload: an absent resource and an empty one, or texts with a zero
character that stands on the other side of a separator. Times before the epoch all count as the
epoch. `payloads_agree_iff` says that there is nothing else, and that records without these three
things are determined by their payloads.
-/
namespace CapabilityGate

/-! ## Bytes of texts and numbers -/

theorem toList_loop_eq_append (bs : ByteArray) (i : Nat) (acc : List UInt8) :
    ByteArray.toList.loop bs i acc = acc.reverse ++ bs.data.toList.drop i := by
  fun_induction ByteArray.toList.loop bs i acc with
  | case1 i acc h ih =>
    have there : i < bs.data.toList.length := by simpa using h
    rw [ih, List.drop_eq_getElem_cons there]
    simp [ByteArray.get!, h]
  | case2 i acc h =>
    rw [List.drop_eq_nil_of_le (by simpa using Nat.le_of_not_lt h)]
    simp

theorem textBytes_eq_data (s : String) : textBytes s = s.toByteArray.data.toList := by
  simp [textBytes, ByteArray.toList, toList_loop_eq_append]

theorem textBytes_append (s t : String) : textBytes (s ++ t) = textBytes s ++ textBytes t := by
  simp [textBytes_eq_data]

theorem textBytes_inj {s t : String} : textBytes s = textBytes t ↔ s = t := by
  rw [textBytes_eq_data, textBytes_eq_data, Array.toList_inj, ← String.toByteArray_inj]
  exact ⟨ByteArray.ext, congrArg _⟩

theorem length_littleEndian (count n : Nat) : (littleEndian count n).length = count := by
  induction count generalizing n with
  | zero => rfl
  | succ count ih => rw [littleEndian, List.length_cons, ih]

/-- So many bytes of a number say what it is below the next higher one. -/
theorem littleEndian_eq_iff (count a b : Nat) :
    littleEndian count a = littleEndian count b ↔
      a % Nat.pow 256 count = b % Nat.pow 256 count := by
  induction count generalizing a b with
  | zero => simp [littleEndian, Nat.mod_one]
  | succ count ih =>
    have lowest : ∀ n, (UInt8.ofNat (n % 256)).toNat = n % 256 := fun n => by
      simp
    have split : ∀ n, n % Nat.pow 256 (count + 1) =
        n % 256 + 256 * (n / 256 % Nat.pow 256 count) := fun n => by
      rw [show Nat.pow 256 (count + 1) = 256 * Nat.pow 256 count from Nat.mul_comm _ _,
        Nat.mod_mul]
    rw [littleEndian, littleEndian, List.cons.injEq, ih, split, split, ← UInt8.toNat_inj, lowest,
      lowest]
    omega

/-- What stands before the first separator can be told apart from what follows it. -/
theorem append_separator_inj {α : Type} {z : α} {a b c d : List α} (ha : z ∉ a) (hc : z ∉ c) :
    a ++ z :: b = c ++ z :: d ↔ a = c ∧ b = d := by
  induction a generalizing c with
  | nil =>
    cases c with
    | nil => simp
    | cons x c =>
      have differ : z ≠ x := fun h => hc (h ▸ List.mem_cons_self)
      simp [differ]
  | cons y a ih =>
    cases c with
    | nil =>
      have differ : y ≠ z := fun h => ha (h ▸ List.mem_cons_self)
      simp [differ]
    | cons x c =>
      have rest := ih (fun h => ha (List.mem_cons_of_mem y h))
        fun h => hc (List.mem_cons_of_mem x h)
      simp [rest, and_assoc]

namespace Record

/-! ## The text and the time of a payload -/

/-- The three texts of a record with zero characters between them. -/
def texts (r : Record) : String :=
  r.capability.name ++ "\x00" ++ r.resource.getD "" ++ "\x00" ++ r.operation

/-- The times from the epoch on whose seconds fit a word. -/
def timeRange : Nat := UInt64.size * nanosPerSecond

theorem payload_eq (r : Record) :
    r.payload = textBytes r.texts ++ 0 :: (littleEndian 8 r.seconds ++
      littleEndian 4 r.subsecondNanos) := by
  have separator : textBytes "\x00" = [0] := by
    rw [textBytes_eq_data]
    decide
  simp [payload, texts, textBytes_append, separator]

/-- Seconds and nanoseconds are one number. -/
theorem time_eq_iff (r s : Record) :
    r.seconds % UInt64.size = s.seconds % UInt64.size ∧ r.subsecondNanos = s.subsecondNanos ↔
      r.timestamp.toNat % timeRange = s.timestamp.toNat % timeRange := by
  have split : ∀ r : Record, r.timestamp.toNat % timeRange =
      r.subsecondNanos + nanosPerSecond * (r.seconds % UInt64.size) := fun r => by
    rw [timeRange, Nat.mul_comm, Nat.mod_mul, subsecondNanos, seconds]
  have below : ∀ r : Record, r.subsecondNanos < nanosPerSecond := fun r =>
    Nat.mod_lt _ (by decide)
  have hr := below r
  have hs := below s
  rw [split, split]
  simp only [nanosPerSecond] at hr hs ⊢
  omega

/-- Two payloads are the same if and only if text and time are. -/
theorem payload_eq_iff (r s : Record) :
    r.payload = s.payload ↔ r.texts = s.texts ∧
      r.timestamp.toNat % timeRange = s.timestamp.toNat % timeRange := by
  have nanos : ∀ r : Record, r.subsecondNanos % Nat.pow 256 4 = r.subsecondNanos := fun r =>
    Nat.mod_eq_of_lt (Nat.lt_trans (Nat.mod_lt _ (by decide)) (by decide))
  have whole : littleEndian 8 r.seconds = littleEndian 8 s.seconds ↔
      r.seconds % UInt64.size = s.seconds % UInt64.size := littleEndian_eq_iff 8 _ _
  have part : littleEndian 4 r.subsecondNanos = littleEndian 4 s.subsecondNanos ↔
      r.subsecondNanos = s.subsecondNanos := by rw [littleEndian_eq_iff, nanos, nanos]
  rw [payload_eq, payload_eq, ← time_eq_iff, ← whole, ← part, ← textBytes_inj]
  constructor
  · intro same
    -- The time has the same length in both, so the texts end at the same place.
    obtain ⟨texts, rest⟩ := List.append_inj' same (by simp [length_littleEndian])
    obtain ⟨seconds, nanos⟩ :=
      List.append_inj (List.cons.inj rest).2 (by simp [length_littleEndian])
    exact ⟨texts, seconds, nanos⟩
  · rintro ⟨texts, seconds, nanos⟩
    rw [texts, seconds, nanos]

/-! ## Records that are determined -/

/-- Nothing in the record is lost in its payload: no zero character in front of a separator, no
empty resource, and a time that can be written. -/
structure Plain (r : Record) : Prop where
  capability : '\x00' ∉ r.capability.name.toList
  resource : '\x00' ∉ (r.resource.getD "").toList
  present : r.resource ≠ some ""
  after_epoch : 0 ≤ r.timestamp
  within_range : r.timestamp.toNat < timeRange

theorem texts_eq_iff {r s : Record} (hr : r.Plain) (hs : s.Plain) :
    r.texts = s.texts ↔ r.capability = s.capability ∧ r.resource = s.resource ∧
      r.operation = s.operation := by
  have chars : ∀ r : Record, r.texts.toList = r.capability.name.toList ++
      '\x00' :: ((r.resource.getD "").toList ++ '\x00' :: r.operation.toList) := fun r => by
    simp [texts]
  have resources : r.resource.getD "" = s.resource.getD "" ↔ r.resource = s.resource := by
    have one := hr.present
    have other := hs.present
    cases hr : r.resource with
    | none =>
      cases hs : s.resource with
      | none => simp
      | some y => simpa [hs, eq_comm] using other
    | some x =>
      cases hs : s.resource with
      | none => simpa [hr] using one
      | some y => simp
  rw [← String.toList_inj, chars, chars, append_separator_inj hr.capability hs.capability,
    append_separator_inj hr.resource hs.resource, String.toList_inj, String.toList_inj,
    String.toList_inj, resources]
  cases r.capability
  cases s.capability
  simp

end Record

open Record

/-- **`payloads_agree_iff`** — two records have the same payload exactly if they have the same text
and the same time, times before the epoch counting as the epoch; and a payload determines its
record among those from whose text and time nothing is lost. -/
theorem payloads_agree_iff (r s : Record) :
    (r.payload = s.payload ↔ r.texts = s.texts ∧
      r.timestamp.toNat % timeRange = s.timestamp.toNat % timeRange) ∧
    (r.Plain → s.Plain → r.payload = s.payload → r = s) := by
  refine ⟨payload_eq_iff r s, fun hr hs same => ?_⟩
  obtain ⟨texts, time⟩ := (payload_eq_iff r s).mp same
  obtain ⟨capability, resource, operation⟩ := (texts_eq_iff hr hs).mp texts
  rw [Nat.mod_eq_of_lt hr.within_range, Nat.mod_eq_of_lt hs.within_range] at time
  have timestamp : r.timestamp = s.timestamp := by
    have first := hr.after_epoch
    have second := hs.after_epoch
    omega
  cases r
  cases s
  simp_all

/-- Two denials of one operation, a second apart, have different payloads. -/
theorem payloads_of_two_seconds_differ :
    (⟨⟨"file.read"⟩, some "/data/a", "fs.read_text", 0⟩ : Record).payload ≠
      (⟨⟨"file.read"⟩, some "/data/a", "fs.read_text", nanosPerSecond⟩ : Record).payload := by
  intro same
  have equal := (payloads_agree_iff _ _).2
    ⟨by decide, by decide, by decide, by decide, by decide⟩
    ⟨by decide, by decide, by decide, by decide, by decide⟩ same
  exact absurd equal (by decide)

/-- A payload does not determine its record: an absent resource and an empty one are written the
same way. -/
theorem absent_resource_written_as_empty :
    ¬ ∀ r s : Record, r ≠ s → r.payload ≠ s.payload := by
  intro determined
  exact determined ⟨⟨"file.read"⟩, none, "fs.read_text", 0⟩
    ⟨⟨"file.read"⟩, some "", "fs.read_text", 0⟩ (by decide) rfl

end CapabilityGate
