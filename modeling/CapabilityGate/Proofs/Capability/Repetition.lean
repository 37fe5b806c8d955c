import CapabilityGate.Wire.Fault
import CapabilityGate.Proofs.Settings.Grants

/-!
# Scopes and repeated patterns

A scope that is made from patterns, or from their texts, is an ordered set: `FirstOccurrences` says
which list stands for it, and no other list does (`FirstOccurrences.unique`). So two scopes are the
same if they are made from the same patterns with different repetitions. A scope that is read from a
document is the list that stands there. Repetitions make no difference to what it admits, but it is
the ordered set of its patterns only if there are none: `scopes_are_ordered_sets`.
-/
namespace CapabilityGate

/-! ## First occurrences -/

section FirstOccurrences

variable {α : Type} [DecidableEq α] {given kept kept' as : List α}

/-- **`FirstOccurrences given kept`** — `kept` has the elements of `given`, in the order in which
they occur there for the first time. -/
structure FirstOccurrences (given kept : List α) : Prop where
  members : ∀ a, a ∈ kept ↔ a ∈ given
  ordered : kept.Pairwise fun a b => given.idxOf a < given.idxOf b

/-- Nothing is before itself, so every element is kept once. -/
theorem FirstOccurrences.nodup (h : FirstOccurrences given kept) : kept.Nodup := by
  refine h.ordered.imp ?_
  rintro a _ before rfl
  exact Nat.lt_irrefl _ before

theorem FirstOccurrences.unique (h : FirstOccurrences given kept)
    (h' : FirstOccurrences given kept') : kept = kept' := by
  have same : kept.Perm kept' := (List.perm_ext_iff_of_nodup h.nodup h'.nodup).mpr fun a =>
    (h.members a).trans (h'.members a).symm
  refine same.eq_of_pairwise (fun a b _ _ before after => ?_) h.ordered h'.ordered
  exact absurd before (Nat.lt_asymm after)

theorem firstOccurrences_distinct (as : List α) : FirstOccurrences as (distinct as) where
  members _ := mem_distinct
  ordered := by
    induction as with
    | nil => exact .nil
    | cons a as ih =>
      have later : ∀ {b}, b ≠ a → (a :: as).idxOf b = as.idxOf b + 1 := fun other =>
        List.idxOf_cons_ne as (Ne.symm other)
      refine .cons (fun b member => ?_) ?_
      · have other : b ≠ a := by simpa using (List.mem_filter.mp member).2
        rw [List.idxOf_cons_self, later other]
        exact Nat.succ_pos _
      · refine (ih.filter (· ≠ a)).imp_of_mem fun {b c} hb hc before => ?_
        have hb : b ≠ a := by simpa using (List.mem_filter.mp hb).2
        have hc : c ≠ a := by simpa using (List.mem_filter.mp hc).2
        rw [later hb, later hc]
        exact Nat.succ_lt_succ before

theorem distinct_eq_self (h : as.Nodup) : distinct as = as := by
  induction h with
  | nil => rfl
  | cons absent _ ih =>
    rename_i a as
    rw [distinct, ih, List.filter_eq_self.mpr fun b member => by simpa using (absent b member).symm]

theorem firstOccurrences_self_iff : FirstOccurrences as as ↔ as.Nodup := by
  refine ⟨fun h => h.nodup, fun h => ?_⟩
  have made := firstOccurrences_distinct as
  rwa [distinct_eq_self h] at made

end FirstOccurrences

/-! ## Scopes that are made -/

namespace Scope

variable {s : Scope} {given : List Pattern}

/-- **`s.IsSetOf given`** — the scope is the ordered set of the given patterns. -/
structure IsSetOf (s : Scope) (given : List Pattern) : Prop where
  patterns : FirstOccurrences given s.patterns
  /-- A resource is admitted if nothing was given, or something that matches it. -/
  admits : ∀ resource, s.admits resource = true ↔
    given = [] ∨ ∃ p ∈ given, p.matches resource = true

/-- What a scope admits depends on its patterns as a set. -/
theorem admits_iff (same : ∀ p, p ∈ s.patterns ↔ p ∈ given) (resource : String) :
    s.admits resource = true ↔ given = [] ∨ ∃ p ∈ given, p.matches resource = true := by
  have none : s.patterns = [] ↔ given = [] := by
    rw [List.eq_nil_iff_forall_not_mem, List.eq_nil_iff_forall_not_mem]
    exact forall_congr' fun p => not_congr (same p)
  simp only [admits, isUnrestricted, Bool.or_eq_true, List.isEmpty_iff, List.any_eq_true, none, same]

theorem isSetOf_ofPatterns (given : List Pattern) : (ofPatterns given).IsSetOf given where
  patterns := firstOccurrences_distinct given
  admits := admits_iff fun _ => mem_distinct

theorem eq_ofPatterns_iff : s = ofPatterns given ↔ s.IsSetOf given := by
  constructor
  · rintro rfl
    exact isSetOf_ofPatterns given
  · intro h
    cases s
    exact congrArg mk (h.patterns.unique (firstOccurrences_distinct given))

theorem parse_eq_ok_iff [Engine] {texts : List String} :
    parse texts = .ok s ↔ ∃ given, given.map Pattern.text = texts ∧
      (∀ text ∈ texts, Pattern.Compiles text) ∧ s.IsSetOf given := by
  unfold parse
  simp only [← and_assoc, ← mapM_parse_eq_ok_iff, ← eq_ofPatterns_iff]
  cases texts.mapM Pattern.parse <;> simp [Except.map, eq_comm]

/-! ## Scopes that are read -/

/-- **`Listed j texts`** — the document lists these texts: under the one key `patterns` of an object,
which may have other entries, or as the one item of an array. -/
inductive Listed : Json → List String → Prop
  | entry {es : List (String × Json)} {texts : List String}
      (only : Wire.valuesOf "patterns" es = [.array (texts.map .string)]) :
      Listed (.object es) texts
  | item {texts : List String} : Listed (.array [.array (texts.map .string)]) texts

/-- **`s.IsListOf given`** — the scope is the list of the given patterns. It admits what the set of
them admits, and it is this set exactly if none is repeated. -/
structure IsListOf (s : Scope) (given : List Pattern) : Prop where
  patterns : s.patterns = given
  admits : ∀ resource, s.admits resource = true ↔
    given = [] ∨ ∃ p ∈ given, p.matches resource = true
  isSetOf_iff : s.IsSetOf given ↔ given.Nodup

theorem isListOf_iff : s.IsListOf given ↔ s.patterns = given := by
  refine ⟨fun h => h.patterns, ?_⟩
  rintro rfl
  have admitted := s.admits_iff fun _ => Iff.rfl
  refine ⟨rfl, admitted, ?_⟩
  rw [← firstOccurrences_self_iff]
  exact ⟨fun h => h.patterns, fun h => ⟨h, admitted⟩⟩

end Scope

section Reading

variable {levels : Nat} {j : Json}

theorem Pattern.ofJson?_eq_some_iff [Engine] {p : Pattern} :
    Pattern.ofJson? levels j = some p ↔ j = .string p.text ∧ Pattern.Compiles p.text := by
  cases j with
  | string text =>
    show (Pattern.parse text).toOption = some p ↔ _
    have parsed : (Pattern.parse text).toOption = some p ↔ Pattern.parse text = .ok p := by
      cases Pattern.parse text <;> simp [Except.toOption]
    rw [parsed, Pattern.parse_eq_ok_iff, Json.string.injEq, @eq_comm _ text]
    apply and_congr_right
    intro same
    rw [same]
  | _ => simp [Pattern.ofJson?, Wire.text]

theorem Wire.items_pattern_eq_some_iff [Engine] {ps : List Pattern} :
    Wire.items Pattern.ofJson? (levels + 1) j = some ps ↔
      j = .array ((ps.map Pattern.text).map .string) ∧ ∀ p ∈ ps, Pattern.Compiles p.text := by
  cases j with
  | array js =>
    rw [Json.array.injEq, List.map_map]
    show js.mapM (Pattern.ofJson? levels) = some ps ↔ _
    simp only [mapM_eq_some_iff, Pattern.ofJson?_eq_some_iff]
    constructor
    · intro h
      induction h with
      | nil => exact ⟨rfl, by simp⟩
      | cons first _ ih =>
        obtain ⟨rfl, compiles⟩ := first
        exact ⟨congrArg _ ih.1, List.forall_mem_cons.mpr ⟨compiles, ih.2⟩⟩
    · rintro ⟨rfl, compiles⟩
      rw [List.forall₂_map_left_iff, List.forall₂_same]
      exact fun p member => ⟨rfl, compiles p member⟩
  | _ => simp [Wire.items]

/-- The value of the one field of a record. -/
theorem Wire.fields_single_iff {name : String} {value : Json} :
    Wire.fields true [name] (levels + 1) j = some [some value] ↔
      (∃ es, j = .object es ∧ Wire.valuesOf name es = [value]) ∨ j = .array [value] := by
  cases j with
  | object es =>
    simp only [Wire.fields, Bool.true_or, if_true, List.mapM_cons, List.mapM_nil,
      Json.object.injEq, exists_eq_left', reduceCtorEq, or_false]
    rcases Wire.valuesOf name es with - | ⟨v, - | ⟨w, vs⟩⟩ <;> simp
  | array js =>
    rcases js with - | ⟨v, - | ⟨w, vs⟩⟩ <;> simp [Wire.fields]
  | _ => simp [Wire.fields]

theorem Scope.ofJson?_eq_some_iff [Engine] {s : Scope} :
    Scope.ofJson? (levels + 2) j = some s ↔
      Scope.Listed j (s.patterns.map Pattern.text) ∧
        ∀ p ∈ s.patterns, Pattern.Compiles p.text := by
  have read : Scope.ofJson? (levels + 2) j = some s ↔
      ∃ list, Wire.fields true ["patterns"] (levels + 2) j = some [some list] ∧
        Wire.items Pattern.ofJson? (levels + 1) list = some s.patterns := by
    cases s
    rw [Scope.ofJson?]
    split
    · rename_i o fields
      cases o <;> simp [Wire.required, fields]
    · rename_i other
      simp only [reduceCtorEq, false_iff]
      rintro ⟨list, fields, -⟩
      exact other _ fields
  simp only [read, Wire.items_pattern_eq_some_iff, Wire.fields_single_iff]
  constructor
  · rintro ⟨list, ⟨es, rfl, only⟩ | rfl, rfl, compile⟩
    · exact ⟨.entry only, compile⟩
    · exact ⟨.item, compile⟩
  · rintro ⟨⟨only⟩ | -, compile⟩
    · exact ⟨_, .inl ⟨_, rfl, only⟩, rfl, compile⟩
    · exact ⟨_, .inr rfl, rfl, compile⟩

end Reading

/-! ## Ordered sets and lists -/

/-- **Scopes are ordered sets unless they are read.** A scope that is made, from patterns or from
their texts, is the ordered set of what is given, whatever is repeated; texts are accepted exactly if
they are those of patterns, which are not empty, and compile. A scope that is read is the list of the
patterns that its document lists, and they compile, too. Two scopes that are made are the same exactly
if one list has the first occurrences of both. -/
theorem scopes_are_ordered_sets [Engine] (given given' : List Pattern) (texts : List String)
    (text : String) (s : Scope) :
    (Scope.ofPatterns given).IsSetOf given ∧
    (Scope.parse texts = .ok s ↔ ∃ listed, listed.map Pattern.text = texts ∧
      (∀ text ∈ texts, Pattern.Compiles text) ∧ s.IsSetOf listed) ∧
    (Wire.read Scope.ofJson? text = some s ↔
      ∃ j listed, Json.parse text = some j ∧ Scope.Listed j (listed.map Pattern.text) ∧
        (∀ p ∈ listed, Pattern.Compiles p.text) ∧ s.IsListOf listed) ∧
    (Scope.ofPatterns given = Scope.ofPatterns given' ↔
      ∃ kept, FirstOccurrences given kept ∧ FirstOccurrences given' kept) := by
  refine ⟨Scope.isSetOf_ofPatterns given, Scope.parse_eq_ok_iff, ?_, ?_⟩
  · unfold Wire.read
    simp only [Option.bind_eq_some_iff, Scope.isListOf_iff]
    constructor
    · rintro ⟨j, parsed, read⟩
      obtain ⟨listed, compile⟩ := Scope.ofJson?_eq_some_iff.mp read
      exact ⟨j, _, parsed, listed, compile, rfl⟩
    · rintro ⟨j, _, parsed, listed, compile, rfl⟩
      exact ⟨j, parsed, Scope.ofJson?_eq_some_iff.mpr ⟨listed, compile⟩⟩
  · constructor
    · intro same
      refine ⟨_, firstOccurrences_distinct given, ?_⟩
      rw [show distinct given = distinct given' from congrArg Scope.patterns same]
      exact firstOccurrences_distinct given'
    · rintro ⟨kept, first, second⟩
      have made := (firstOccurrences_distinct given).unique first
      have made' := (firstOccurrences_distinct given').unique second
      exact congrArg Scope.mk (made.trans made'.symm)

/-- A document that lists a pattern twice is read as a scope that has it twice. -/
theorem repeated_pattern_kept :
    ¬ ∀ text s, Wire.read Scope.ofJson? text = some s → s.patterns.Nodup := by
  intro always
  have read : Wire.read Scope.ofJson? "\x7b\"patterns\":[\"a\",\"a\"]\x7d" =
      some ⟨[⟨"a", by decide⟩, ⟨"a", by decide⟩]⟩ := by
    decide +kernel
  exact absurd (always _ _ read) (by decide)

end CapabilityGate
