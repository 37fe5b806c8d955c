import CapabilityGate.Gate.Catalog
import CapabilityGate.Proofs.Lists

/-!
# What registrations declare

A list of registrations declares functions, classes, and methods at the place of their class, one
after the other (`Registration.declared`). `Registration.Distinct` says for each of the three that
none is registered twice; `Registration.nodup_declaredFrom_iff` says the same of the one list.
-/
namespace CapabilityGate

/-! ## What registrations declare -/

/-- What a registration declares. Methods of one name are different ones if they are declared at
different places, each inside its class. -/
inductive Declared where
  | function (symbol : String)
  | method (place : Nat) (className name : String)
  | class (className : String)
deriving DecidableEq

/-- The text that names what is declared. -/
def Declared.label : Declared → String
  | function symbol => symbol
  | method _ className name => s!"{className}.{name}"
  | .class className => className

namespace Registration

variable {β : Type}

/-- The symbol of a function. -/
def symbol? : Registration β → Option String
  | .library _ symbol _ _ => some symbol
  | .program symbol _ => some symbol
  | .foreign _ symbol _ => some symbol
  | .class _ _ _ _ => none

/-- The name of a class. -/
def className? : Registration β → Option String
  | .class _ name _ _ => some name
  | _ => none

/-- What the registration at a place declares; a class is declared after its methods. -/
def declaredAt (place : Nat) : Registration β → List Declared
  | .library _ symbol _ _ => [.function symbol]
  | .program symbol _ => [.function symbol]
  | .foreign _ symbol _ => [.function symbol]
  | .class _ name _ methods => methods.map (.method place name ·.name) ++ [.class name]

/-- What registrations declare, from a place on. -/
def declaredFrom (place : Nat) (rs : List (Registration β)) : List Declared :=
  (rs.zipIdx place).flatMap fun (r, i) => declaredAt i r

/-- **`declared rs`** — all that registrations declare, in order. -/
def declared (rs : List (Registration β)) : List Declared := declaredFrom 0 rs

/-- **`Distinct rs`** — no function symbol, no class name, and inside a class no name of a method is
registered twice. -/
structure Distinct (rs : List (Registration β)) : Prop where
  symbols : (rs.filterMap symbol?).Nodup
  classes : (rs.filterMap className?).Nodup
  methods : ∀ module name trusted methods, .class module name trusted methods ∈ rs →
    (methods.map MethodEntry.name).Nodup

variable {place : Nat} {r : Registration β} {rs : List (Registration β)}

/-- A registration is one of a function or one of a class. -/
theorem symbol_or_class (r : Registration β) :
    (∃ symbol, r.symbol? = some symbol) ∨
      ∃ module name trusted methods, r = .class module name trusted methods := by
  cases r with
  | library _ symbol | program symbol | foreign _ symbol => exact .inl ⟨symbol, rfl⟩
  | «class» module name trusted methods => exact .inr ⟨module, name, trusted, methods, rfl⟩

theorem declaredAt_of_symbol {symbol : String} (h : r.symbol? = some symbol) :
    r.declaredAt place = [.function symbol] := by
  cases r <;> cases h <;> rfl

theorem className?_of_symbol {symbol : String} (h : r.symbol? = some symbol) :
    r.className? = none := by
  cases r <;> cases h <;> rfl

theorem distinct_nil : Distinct ([] : List (Registration β)) :=
  ⟨.nil, .nil, by simp⟩

theorem distinct_cons_of_symbol {symbol : String} (h : r.symbol? = some symbol) :
    Distinct (r :: rs) ↔ symbol ∉ rs.filterMap symbol? ∧ Distinct rs := by
  have noClass := className?_of_symbol h
  constructor
  · rintro ⟨symbols, classes, methods⟩
    rw [List.filterMap_cons_some h, List.nodup_cons] at symbols
    rw [List.filterMap_cons_none noClass] at classes
    exact ⟨symbols.1, symbols.2, classes, fun _ _ _ _ member =>
      methods _ _ _ _ (List.mem_cons_of_mem r member)⟩
  · rintro ⟨absent, symbols, classes, methods⟩
    refine ⟨?_, ?_, fun _ _ _ _ member => ?_⟩
    · rw [List.filterMap_cons_some h]
      exact symbols.cons absent
    · rwa [List.filterMap_cons_none noClass]
    · rcases List.mem_cons.mp member with rfl | member
      · cases h
      · exact methods _ _ _ _ member

theorem distinct_cons_class {module name : String} {trusted : Bool}
    {methods : List (MethodEntry β)} :
    Distinct (.class module name trusted methods :: rs) ↔
      (methods.map MethodEntry.name).Nodup ∧ name ∉ rs.filterMap className? ∧ Distinct rs := by
  have named : className? (Registration.class module name trusted methods) = some name := rfl
  have noSymbol : symbol? (Registration.class module name trusted methods) = none := rfl
  constructor
  · rintro ⟨symbols, classes, unlike⟩
    rw [List.filterMap_cons_some named, List.nodup_cons] at classes
    rw [List.filterMap_cons_none noSymbol] at symbols
    exact ⟨unlike _ _ _ _ List.mem_cons_self, classes.1, symbols, classes.2, fun _ _ _ _ member =>
      unlike _ _ _ _ (List.mem_cons_of_mem _ member)⟩
  · rintro ⟨own, absent, symbols, classes, unlike⟩
    refine ⟨?_, ?_, fun _ _ _ _ member => ?_⟩
    · rwa [List.filterMap_cons_none noSymbol]
    · rw [List.filterMap_cons_some named]
      exact classes.cons absent
    · rcases List.mem_cons.mp member with same | member
      · cases same
        exact own
      · exact unlike _ _ _ _ member

@[simp]
theorem declaredFrom_nil : declaredFrom place ([] : List (Registration β)) = [] := rfl

@[simp]
theorem declaredFrom_cons :
    declaredFrom place (r :: rs) = r.declaredAt place ++ declaredFrom (place + 1) rs := rfl

theorem function_mem_declaredAt {symbol : String} :
    .function symbol ∈ r.declaredAt place ↔ r.symbol? = some symbol := by
  cases r <;> simp [declaredAt, symbol?, eq_comm]

theorem class_mem_declaredAt {name : String} :
    .class name ∈ r.declaredAt place ↔ r.className? = some name := by
  cases r <;> simp [declaredAt, className?, eq_comm]

/-- Methods are declared at the place of their class. -/
theorem place_of_method_mem {p : Nat} {className name : String}
    (h : .method p className name ∈ r.declaredAt place) : p = place := by
  cases r <;> simp [declaredAt] at h
  obtain ⟨-, -, rfl, -⟩ := h
  rfl

theorem function_mem_declaredFrom {symbol : String} :
    .function symbol ∈ declaredFrom place rs ↔ symbol ∈ rs.filterMap symbol? := by
  induction rs generalizing place with
  | nil => simp
  | cons r rs ih => simp [function_mem_declaredAt, ih]

theorem class_mem_declaredFrom {name : String} :
    .class name ∈ declaredFrom place rs ↔ name ∈ rs.filterMap className? := by
  induction rs generalizing place with
  | nil => simp
  | cons r rs ih => simp [class_mem_declaredAt, ih]

theorem le_of_method_mem {p : Nat} {className name : String}
    (h : .method p className name ∈ declaredFrom place rs) : place ≤ p := by
  induction rs generalizing place with
  | nil => cases h
  | cons r rs ih =>
    rw [declaredFrom_cons, List.mem_append] at h
    rcases h with here | later
    · exact Nat.le_of_eq (place_of_method_mem here).symm
    · exact Nat.le_of_succ_le (ih later)

/-- The name of a class, behind its methods, in a list of what is declared. -/
theorem nodup_declaredAt_class {module name : String} {trusted : Bool}
    {methods : List (MethodEntry β)} :
    ((Registration.class module name trusted methods).declaredAt place).Nodup ↔
      (methods.map MethodEntry.name).Nodup := by
  have renamed : methods.map (Declared.method place name ·.name) =
      (methods.map MethodEntry.name).map (Declared.method place name) := by
    rw [List.map_map]
    rfl
  have injective : Function.Injective (Declared.method place name) := fun a b same => by
    cases same
    rfl
  simp only [declaredAt, List.nodup_append, renamed, List.nodup_map_iff injective]
  simp

/-- Nothing is declared twice. -/
theorem nodup_declaredFrom_iff : (declaredFrom place rs).Nodup ↔ Distinct rs := by
  induction rs generalizing place with
  | nil => exact ⟨fun _ => distinct_nil, fun _ => .nil⟩
  | cons r rs ih =>
    rw [declaredFrom_cons, List.nodup_append', ih]
    rcases r.symbol_or_class with ⟨symbol, named⟩ | ⟨module, name, trusted, methods, rfl⟩
    · rw [declaredAt_of_symbol named, distinct_cons_of_symbol named,
        List.singleton_disjoint, function_mem_declaredFrom]
      simp [and_comm]
    · have apart : List.Disjoint (declaredAt place (.class module name trusted methods))
          (declaredFrom (place + 1) rs) ↔ .class name ∉ declaredFrom (place + 1) rs := by
        constructor
        · exact fun disjoint member => disjoint (by simp [declaredAt]) member
        · intro absent x here later
          simp only [declaredAt, List.mem_append, List.mem_map, List.mem_singleton] at here
          rcases here with ⟨m, -, rfl⟩ | rfl
          · exact absurd (le_of_method_mem later) (Nat.not_succ_le_self place)
          · exact absent later
      rw [nodup_declaredAt_class, apart, class_mem_declaredFrom, distinct_cons_class,
        and_comm (a := Distinct rs)]

end Registration

end CapabilityGate
