import CapabilityGate.Proofs.Catalog.Registration
import CapabilityGate.Proofs.Text.Fields

/-!
# Building a catalog

Registrations are added one after the other, and what repeats is noted on the way. While that goes
on, the catalog knows a symbol or a class exactly if it has been declared before (`Catalog.Knows`), so
what is noted is what has been declared before, whether a function, a class or a method
(`Catalog.names_register`). So a catalog is built exactly if nothing is declared twice, and then it is
made of one entry for each registration (`Catalog.build_eq_ok_iff`); otherwise what is declared again
is listed, and nothing else (`Catalog.lists_of_build_eq_error`).
-/
namespace CapabilityGate

open Registration

variable {β : Type}

namespace Catalog

/-! ## One registration -/

/-- The class entry of a registration. -/
def classFrom? (program : String) : Registration β → Option (ClassEntry β)
  | .class module name trusted methods =>
    some ⟨name, if module = program then .program module else .module module, trusted, methods⟩
  | _ => none

/-- **`of program rs`** — one entry for each registration, in order. -/
def of (program : String) (rs : List (Registration β)) : Catalog β :=
  ⟨program, rs.filterMap fun r => functionEntry? program r, rs.filterMap (classFrom? program)⟩

theorem isSome_function? {c : Catalog β} {symbol : String} :
    (c.function? symbol).isSome ↔ symbol ∈ c.functions.map FunctionEntry.symbol := by
  simp [function?]

theorem isSome_class? {c : Catalog β} {name : String} :
    (c.class? name).isSome ↔ name ∈ c.classes.map ClassEntry.name := by
  simp [class?]

theorem repeatedNames_eq (seen ns : List String) : repeatedNames seen ns = againAfter seen ns := by
  induction ns generalizing seen with
  | nil => rfl
  | cons n ns ih => simp only [repeatedNames, againAfter, ih]

variable {c : Catalog β} {r : Registration β} {rs : List (Registration β)} {place : Nat}
  {seen : List Declared} {program : String}

theorem exists_functionEntry {symbol : String} (h : r.symbol? = some symbol) (program : String) :
    ∃ f, functionEntry? program r = some f ∧ f.symbol = symbol := by
  cases r <;> cases h <;> exact ⟨_, rfl, rfl⟩

theorem classFrom?_of_symbol {symbol : String} (h : r.symbol? = some symbol) :
    classFrom? program r = none := by
  cases r <;> cases h <;> rfl

/-- Adding a function. -/
theorem register_function {f : FunctionEntry β} (h : functionEntry? c.program r = some f) :
    c.register r =
      if (c.function? f.symbol).isSome then (c, [f.symbol])
      else ({ c with functions := c.functions ++ [f] }, []) := by
  cases r <;> cases h <;> rfl

/-- A registration adds its symbol, unless it is there. -/
theorem mem_symbols_register {symbol : String} :
    symbol ∈ (c.register r).1.functions.map FunctionEntry.symbol ↔
      r.symbol? = some symbol ∨ symbol ∈ c.functions.map FunctionEntry.symbol := by
  rcases r.symbol_or_class with ⟨own, named⟩ | ⟨module, name, trusted, entries, rfl⟩
  · obtain ⟨f, entry, rfl⟩ := exists_functionEntry named c.program
    rw [register_function entry, named, Option.some.injEq]
    split
    · rename_i found
      exact (or_iff_right_of_imp fun same => same ▸ isSome_function?.mp found).symm
    · simp [or_comm, eq_comm]
  · rw [register]
    split <;> simp [symbol?]

/-- A registration adds the name of its class, unless it is there. -/
theorem mem_classNames_register {name : String} :
    name ∈ (c.register r).1.classes.map ClassEntry.name ↔
      r.className? = some name ∨ name ∈ c.classes.map ClassEntry.name := by
  rcases r.symbol_or_class with ⟨own, named⟩ | ⟨module, own, trusted, entries, rfl⟩
  · obtain ⟨f, entry, rfl⟩ := exists_functionEntry named c.program
    rw [register_function entry, className?_of_symbol named]
    split <;> simp
  · rw [register, className?, Option.some.injEq]
    split
    · rename_i found
      exact (or_iff_right_of_imp fun same => same ▸ isSome_class?.mp found).symm
    · simp [or_comm, eq_comm]

/-! ## What is known on the way -/

/-- **`c.Knows seen place`** — before the registration at a place, the catalog has an entry for every
function and every class that has been declared, and no method of that place has been. -/
structure Knows (c : Catalog β) (seen : List Declared) (place : Nat) : Prop where
  functions : ∀ symbol, (c.function? symbol).isSome ↔ .function symbol ∈ seen
  classes : ∀ name, (c.class? name).isSome ↔ .class name ∈ seen
  methods : ∀ p className name, .method p className name ∈ seen → p < place

theorem knows_empty : (empty program : Catalog β).Knows [] 0 where
  functions symbol := by simp [empty, function?]
  classes name := by simp [empty, class?]
  methods p className name member := by cases member

theorem Knows.register (known : c.Knows seen place) :
    (c.register r).1.Knows (r.declaredAt place ++ seen) (place + 1) where
  functions symbol := by
    rw [isSome_function?, mem_symbols_register, ← isSome_function?, known.functions,
      List.mem_append, function_mem_declaredAt]
  classes name := by
    rw [isSome_class?, mem_classNames_register, ← isSome_class?, known.classes,
      List.mem_append, class_mem_declaredAt]
  methods p className name member := by
    rcases List.mem_append.mp member with here | earlier
    · exact Nat.lt_succ_of_le (Nat.le_of_eq (place_of_method_mem here))
    · exact Nat.lt_succ_of_lt (known.methods p className name earlier)

/-- What a registration repeats, named. -/
theorem names_register (known : c.Knows seen place) :
    (c.register r).2 = (againAfter seen (r.declaredAt place)).map Declared.label := by
  rcases r.symbol_or_class with ⟨symbol, named⟩ | ⟨module, name, trusted, entries, rfl⟩
  · obtain ⟨f, entry, rfl⟩ := exists_functionEntry named c.program
    rw [declaredAt_of_symbol named, register_function entry]
    simp only [known.functions, againAfter]
    split <;> rfl
  · have injective : Function.Injective (Declared.method place name) := fun a b same => by
      cases same
      rfl
    have fresh : ∀ method, .method place name method ∈ seen ↔ method ∈ ([] : List String) :=
      fun method => iff_of_false
        (fun member => Nat.lt_irrefl place (known.methods _ _ _ member)) List.not_mem_nil
    have own : againAfter seen (entries.map (Declared.method place name ·.name)) =
        (againAfter [] (entries.map MethodEntry.name)).map (.method place name) := by
      rw [← againAfter_map injective fresh, List.map_map]
      rfl
    have last : .class name ∈ entries.map (Declared.method place name ·.name) ++ seen ↔
        .class name ∈ seen := by
      simp
    rw [declaredAt, againAfter_append, own, register, repeatedNames_eq]
    simp only [known.classes, againAfter, last]
    split <;> simp [Declared.label]

/-! ## All registrations -/

theorem registerAll_cons :
    c.registerAll (r :: rs) = (((c.register r).1.registerAll rs).1,
      (c.register r).2 ++ ((c.register r).1.registerAll rs).2) := rfl

theorem names_registerAll (known : c.Knows seen place) :
    (c.registerAll rs).2 = (againAfter seen (declaredFrom place rs)).map Declared.label := by
  induction rs generalizing c seen place with
  | nil => rfl
  | cons r rs ih =>
    rw [registerAll_cons, declaredFrom_cons, againAfter_append, List.map_append,
      names_register known, ih known.register]

/-- Methods without a repeated name are all kept. -/
theorem firstMethods_eq_self {entries : List (MethodEntry β)}
    (distinct : (entries.map MethodEntry.name).Nodup) : firstMethods entries = entries := by
  -- The fold keeps what it has and adds what comes, as long as no name comes twice.
  suffices ∀ kept : List (MethodEntry β), ((kept ++ entries).map MethodEntry.name).Nodup →
      entries.foldl (fun kept m => if kept.any (·.name = m.name) then kept else kept ++ [m]) kept =
        kept ++ entries from this [] distinct
  clear distinct
  induction entries with
  | nil => exact fun kept _ => (List.append_nil kept).symm
  | cons m entries ih =>
    intro kept distinct
    have absent : ¬kept.any (·.name = m.name) := by
      simp only [List.map_append, List.map_cons, List.nodup_append'] at distinct
      simp only [List.any_eq_true, decide_eq_true_eq, not_exists, not_and]
      exact fun k member same => distinct.2.2 (List.mem_map_of_mem member) (same ▸ List.mem_cons_self)
    rw [List.append_cons] at distinct
    rw [List.foldl_cons, if_neg absent, ih _ distinct, ← List.append_cons]

/-- A registration that repeats nothing adds its entry. -/
theorem register_of_names_eq_nil (h : (c.register r).2 = []) :
    (c.register r).1 = ⟨c.program, c.functions ++ [r].filterMap fun r => functionEntry? c.program r,
      c.classes ++ [r].filterMap (classFrom? c.program)⟩ := by
  rcases r.symbol_or_class with ⟨symbol, named⟩ | ⟨module, name, trusted, entries, rfl⟩
  · obtain ⟨f, entry, -⟩ := exists_functionEntry named c.program
    rw [register_function entry] at h ⊢
    rw [List.filterMap_cons_some entry, List.filterMap_cons_none (classFrom?_of_symbol named)]
    split at h
    · cases h
    · rename_i new
      simp [new]
  · rw [register] at h ⊢
    split at h
    · simp at h
    · rename_i new
      have distinct : (entries.map MethodEntry.name).Nodup := by
        rw [← againAfter_nil_eq_nil_iff, ← repeatedNames_eq]
        simpa using h
      simp [new, functionEntry?, classFrom?, firstMethods_eq_self distinct]

theorem registerAll_of_names_eq_nil (h : (c.registerAll rs).2 = []) :
    (c.registerAll rs).1 =
      ⟨c.program, c.functions ++ rs.filterMap fun r => functionEntry? c.program r,
        c.classes ++ rs.filterMap (classFrom? c.program)⟩ := by
  induction rs generalizing c with
  | nil => simp [registerAll]
  | cons r rs ih =>
    rw [registerAll_cons] at h ⊢
    obtain ⟨first, rest⟩ := List.append_eq_nil_iff.mp h
    have split : r :: rs = [r] ++ rs := rfl
    rw [ih rest, register_of_names_eq_nil first, split]
    simp only [List.filterMap_append, List.append_assoc]

/-! ## The outcome -/

/-- What is repeated is what is declared again. -/
theorem names_registerAll_empty (program : String) :
    ((empty program).registerAll rs).2 = (againAfter [] (declared rs)).map Declared.label :=
  names_registerAll knows_empty

theorem names_eq_nil_iff_distinct (program : String) :
    ((empty program).registerAll rs).2 = [] ↔ Distinct rs := by
  rw [names_registerAll_empty, List.map_eq_nil_iff, againAfter_nil_eq_nil_iff, declared,
    nodup_declaredFrom_iff]

/-- **A catalog is built exactly if nothing is declared twice**, and then it is made of the entries
of all registrations. -/
theorem build_eq_ok_iff : build program rs = .ok c ↔ Distinct rs ∧ c = of program rs := by
  rw [← names_eq_nil_iff_distinct program]
  unfold build
  dsimp only
  cases names : ((empty program).registerAll rs).2 with
  | nil =>
    rw [registerAll_of_names_eq_nil names]
    simp [empty, of, eq_comm]
  | cons n ns => simp

theorem exists_build_iff : (∃ c, build program rs = .ok c) ↔ Distinct rs := by
  simp [build_eq_ok_iff]

end Catalog

/-! ## The explanation -/

/-- **`d.Lists as`** — the explanation names, in order, what is declared again: of each thing all
but one, and nothing else. Every one of the names stands in the message. -/
structure Duplicates.Lists (d : Duplicates) (as : List Declared) : Prop where
  names : ∃ again : List Declared, d.names = again.map Declared.label ∧ again.Sublist as ∧
    ∀ a, again.count a = as.count a - 1
  message : ∀ name ∈ d.names, name.toList <:+: d.message.toList

theorem Duplicates.infix_message {d : Duplicates} {name : String} (member : name ∈ d.names) :
    name.toList <:+: d.message.toList := by
  have shown : d.message.toList =
      "catalog: duplicate registrations: ".toList ++ (Text.joinStrings ", " d.names).toList :=
    String.toList_append
  rw [shown]
  exact (Text.infix_joinStrings member).trans (List.suffix_append _ _).isInfix

theorem Catalog.lists_of_build_eq_error {program : String} {rs : List (Registration β)}
    {d : Duplicates} (h : Catalog.build program rs = .error d) : d.Lists (declared rs) := by
  unfold Catalog.build at h
  dsimp only at h
  split at h
  · cases h
  · cases h
    rw [names_registerAll_empty]
    refine ⟨⟨againAfter [] (declared rs), rfl, againAfter_sublist, fun a => ?_⟩,
      fun name member => Duplicates.infix_message member⟩
    rw [count_againAfter, if_neg List.not_mem_nil]

end CapabilityGate
