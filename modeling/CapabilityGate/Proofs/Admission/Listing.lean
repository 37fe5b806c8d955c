import CapabilityGate.Gate.Admission

/-!
# What the catalog lists of a callee

Functions and methods are registered in two tables, but admission asks the same of both: what is
required, where the symbol comes from, whether its class is trusted. `Catalog.listing?` is that one
view. `Catalog.route_of_listing` and `Catalog.route_of_unlisted` read the route of every callee off
it, and `Catalog.Admits` says when a registered body may be entered at all.
-/
namespace CapabilityGate

/-- What is registered for a callee. A function has the unit receiver and no class to trust. -/
structure Listing (β : Type) where
  requirement : Option Requirement
  origin : Origin
  trusted : Bool
  receiver : Value
  body : β

/-- The symbol of a callee in records and faults. -/
def Value.symbol : Value → String
  | function symbol => symbol
  | method receiver name => s!"{receiver.typeName}.{name}"
  | _ => ""

namespace Catalog

variable {β : Type} {c : Catalog β} {callee : Value} {x : Listing β}

/-- **`c.listing? callee`** — what is registered for a callee, if anything is. -/
def listing? (c : Catalog β) : Value → Option (Listing β)
  | .function symbol =>
    (c.function? symbol).map fun f => ⟨f.requirement, f.origin, false, .unit, f.body⟩
  | .method (.object className fields) name =>
    (c.class? className).bind fun k => (k.method? name).map fun m =>
      ⟨m.requirement, k.origin, k.trusted, .object className fields, m.body⟩
  | _ => none

/-- The listed primitive method that a callee names. -/
def primitive? : Value → Option (Primitive × Value)
  | .method receiver name => (primitiveOf? receiver name).map (·, receiver)
  | _ => none

/-- The origin that a denial of a callee names. -/
def originOf (c : Catalog β) : Value → String
  | .function symbol =>
    match c.function? symbol with
    | some f => f.origin.display
    | none => "unregistered symbol"
  | .method (.object className _) _ =>
    match c.class? className with
    | some k => k.origin.display
    | none => "unregistered class"
  | .method receiver _ => s!"builtin type '{receiver.kind.name}'"
  | _ => ""

/-- A listed callee is a registered function, or a registered method of an object. -/
theorem listing?_cases (hx : c.listing? callee = some x) :
    (∃ symbol f, callee = .function symbol ∧ c.function? symbol = some f ∧
      x = ⟨f.requirement, f.origin, false, .unit, f.body⟩) ∨
    (∃ className fields name k m, callee = .method (.object className fields) name ∧
      c.class? className = some k ∧ k.method? name = some m ∧
      x = ⟨m.requirement, k.origin, k.trusted, .object className fields, m.body⟩) := by
  unfold listing? at hx
  split at hx
  · obtain ⟨f, hf, rfl⟩ := Option.map_eq_some_iff.1 hx
    exact Or.inl ⟨_, f, rfl, hf, rfl⟩
  · obtain ⟨k, hk, hmap⟩ := Option.bind_eq_some_iff.1 hx
    obtain ⟨m, hm, rfl⟩ := Option.map_eq_some_iff.1 hmap
    exact Or.inr ⟨_, _, _, k, m, rfl, hk, hm, rfl⟩
  · cases hx

/-- Objects are no primitive kind, so no primitive method is listed twice. -/
theorem primitive?_of_listing (hx : c.listing? callee = some x) : primitive? callee = none := by
  rcases listing?_cases hx with ⟨_, _, rfl, -, -⟩ | ⟨_, _, _, _, _, rfl, -, -, -⟩ <;> rfl

theorem originOf_of_listing (hx : c.listing? callee = some x) :
    c.originOf callee = x.origin.display := by
  rcases listing?_cases hx with ⟨_, f, rfl, hf, rfl⟩ | ⟨_, _, _, k, m, rfl, hk, -, rfl⟩
  · simp [originOf, hf]
  · simp [originOf, hk]

theorem isCallable_of_route (h : c.route callee ≠ .notCallable) : callee.isCallable = true := by
  cases callee <;> first | rfl | exact absurd rfl h

theorem route_of_listing (hx : c.listing? callee = some x) :
    c.route callee =
      match x.requirement with
      | some r => .gated callee.symbol r x.receiver x.body
      | none =>
        if x.origin.isProgram || x.trusted then .free x.receiver x.body
        else .denied callee.symbol x.origin.display := by
  rcases listing?_cases hx with ⟨symbol, f, rfl, hf, rfl⟩ | ⟨_, _, name, k, m, rfl, hk, hm, rfl⟩
  · cases hr : f.requirement <;> simp [route, routeFunction, hf, hr, Value.symbol]
  · cases hr : m.requirement with
    | some r => simp [route, routeMethod, classOf?, hk, hm, hr, Value.symbol]
    | none =>
      cases hp : k.origin.isProgram <;>
        simp [route, routeMethod, routeUnmarked, classOf?, hk, hm, hr, hp, primitiveOf?,
          Value.kind, Kind.isSafePrimitive, Kind.safePrimitives, Value.symbol, methodOrigin]

theorem route_of_unlisted (hc : callee.isCallable = true) (hx : c.listing? callee = none) :
    c.route callee =
      match primitive? callee with
      | some (p, receiver) => .primitive p receiver
      | none => .denied callee.symbol (c.originOf callee) := by
  cases callee with
  | function symbol =>
    have hf : c.function? symbol = none := by simpa [listing?] using hx
    simp [route, routeFunction, hf, primitive?, Value.symbol, originOf]
  | method receiver name =>
    cases receiver with
    | object className fields =>
      have hprim : primitiveOf? (.object className fields) name = none := rfl
      cases hk : c.class? className with
      | none =>
        simp [route, routeMethod, classOf?, hk, hprim, primitive?, Value.symbol, methodOrigin,
          originOf]
      | some k =>
        have hm : k.method? name = none := by simpa [listing?, hk] using hx
        simp [route, routeMethod, classOf?, hk, hm, hprim, primitive?, Value.symbol, methodOrigin,
          originOf]
    | _ =>
      simp only [route, routeMethod, classOf?, primitive?, originOf, methodOrigin, Value.symbol]
      split <;> simp_all
  | _ => cases hc

end Catalog

/-! ## When a registered body may be entered -/

/-- What is required is held: either nothing is, or a context is active and holds all of it. -/
def Requirement.MetBy (r : Requirement) (visible : Option Lineage) : Prop :=
  r.capabilities = [] ∨ ∃ l, visible = some l ∧ ∀ c ∈ r.capabilities, l.holds c none true

theorem Requirement.missing_eq_nil_iff (r : Requirement) (visible : Option Lineage) :
    r.missing visible = [] ↔ r.MetBy visible := by
  unfold Requirement.missing Requirement.MetBy
  rw [List.filter_eq_nil_iff]
  cases visible with
  | none => simp [List.eq_nil_iff_forall_not_mem]
  | some l =>
    simp only [Option.any_some, Bool.not_eq_true', Bool.not_eq_false]
    constructor
    · intro h
      exact Or.inr ⟨l, rfl, h⟩
    · rintro (hnil | ⟨l', hl, h⟩)
      · simp [hnil]
      · cases hl
        exact h

namespace Catalog

variable {β : Type} {c : Catalog β} {callee receiver : Value} {visible : Option Lineage} {body : β}

/-- **`c.Admits callee visible`** — the callee is registered, and either what it requires is held by
the active context, or it requires nothing and is of the program or of a trusted class. -/
def Admits (c : Catalog β) (callee : Value) (visible : Option Lineage) : Prop :=
  ∃ x, c.listing? callee = some x ∧
    match x.requirement with
    | some r => r.MetBy visible
    | none => x.origin.isProgram = true ∨ x.trusted = true

theorem admits_of_gated {symbol : String} {r : Requirement}
    (h : c.route callee = .gated symbol r receiver body) (hr : r.MetBy visible) :
    c.Admits callee visible := by
  cases hx : c.listing? callee with
  | some x =>
    rw [route_of_listing hx] at h
    split at h
    · rename_i hreq
      cases h
      exact ⟨x, hx, by rw [hreq]; exact hr⟩
    · split at h <;> cases h
  | none =>
    have hc : callee.isCallable = true := isCallable_of_route (c := c) (by simp [h])
    rw [route_of_unlisted hc hx] at h
    split at h <;> cases h

theorem admits_of_free (h : c.route callee = .free receiver body) : c.Admits callee visible := by
  cases hx : c.listing? callee with
  | some x =>
    rw [route_of_listing hx] at h
    split at h
    · cases h
    · rename_i hreq
      split at h
      · rename_i hopen
        exact ⟨x, hx, by rw [hreq]; simpa using hopen⟩
      · cases h
  | none =>
    have hc : callee.isCallable = true := isCallable_of_route (c := c) (by simp [h])
    rw [route_of_unlisted hc hx] at h
    split at h <;> cases h

end Catalog

/-! ## Records of denials -/

/-- The records of a refused call, one for each missing capability. -/
def denialRecords (missing : List Capability) (resource : Option String) (operation : String)
    (now : Time) : List Record :=
  missing.map fun c => ⟨c, resource, operation, now⟩

/-- Denials change nothing but the log. -/
theorem Machine.denyAll_eq (m : Machine) (missing : List Capability) (resource : Option String)
    (operation : String) :
    m.denyAll missing resource operation = m.change fun w =>
      { w with log := w.log.extend (denialRecords missing resource operation w.clock) } := by
  unfold Machine.denyAll denialRecords Log.extend
  induction missing generalizing m with
  | nil => rfl
  | cons capability missing ih =>
    rw [List.foldl_cons, ih]
    rfl

end CapabilityGate
