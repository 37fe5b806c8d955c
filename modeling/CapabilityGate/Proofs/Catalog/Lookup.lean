import CapabilityGate.Proofs.Admission.Listing
import CapabilityGate.Proofs.Admission.Mediation
import CapabilityGate.Proofs.Catalog.Building
import CapabilityGate.Proofs.Settings.Reading

/-!
# What a catalog holds

`Registration.MakesFunction` and `Registration.MakesClass` say what entry a registration stands for.
A catalog that was built finds, under each symbol and each name, the entry of the registration made
for it, and nothing else (`Catalog.HoldsExactly`). That says nothing about an order, so registrations
that come in another order make a catalog that answers alike (`Catalog.route_eq_of_reordered`), and no
call through a gate can tell the two apart. `catalog_holds_registrations` puts this together with when
a catalog is built, and what is explained when it is not.
-/
namespace CapabilityGate

variable {β : Type}

/-! ## Entries of registrations -/

namespace Registration

/-- **`r.MakesFunction program f`** — the registration, in a catalog for a program, is one of the
function `f`. -/
inductive MakesFunction (program : String) : Registration β → FunctionEntry β → Prop
  | library (module symbol : String) (requirement : Requirement) (body : β) :
    MakesFunction program (.library module symbol requirement body)
      ⟨symbol, .module module, some requirement, body⟩
  | program (symbol : String) (body : β) :
    MakesFunction program (.program symbol body) ⟨symbol, .program program, none, body⟩
  | foreign (module symbol : String) (body : β) :
    MakesFunction program (.foreign module symbol body) ⟨symbol, .module module, none, body⟩

/-- **`r.MakesClass program k`** — the registration, in a catalog for a program, is one of the class
`k`, which is the program's own exactly if its module is. -/
inductive MakesClass (program : String) : Registration β → ClassEntry β → Prop
  | own (name : String) (trusted : Bool) (methods : List (MethodEntry β)) :
    MakesClass program (.class program name trusted methods)
      ⟨name, .program program, trusted, methods⟩
  | other (module name : String) (trusted : Bool) (methods : List (MethodEntry β))
      (foreign : module ≠ program) :
    MakesClass program (.class module name trusted methods)
      ⟨name, .module module, trusted, methods⟩

variable {program : String} {r r' : Registration β} {rs rs' : List (Registration β)}
  {f : FunctionEntry β} {k k' : ClassEntry β}

theorem makesFunction_iff : r.MakesFunction program f ↔ Catalog.functionEntry? program r = some f := by
  constructor
  · rintro (_ | _ | _) <;> rfl
  · intro h
    cases r <;> cases h <;> constructor

theorem makesClass_iff : r.MakesClass program k ↔ Catalog.classFrom? program r = some k := by
  constructor
  · rintro (_ | ⟨_, _, _, _, foreign⟩)
    · simp [Catalog.classFrom?]
    · simp [Catalog.classFrom?, foreign]
  · intro h
    cases r with
    | «class» module name trusted methods =>
      simp only [Catalog.classFrom?, Option.some.injEq] at h
      split at h <;> subst h
      · rename_i same
        subst same
        exact .own name trusted methods
      · rename_i foreign
        exact .other module name trusted methods foreign
    | _ => cases h

/-! ## Another order -/

/-- **`r.SameMethods r'`** — the same registration, but for the order of methods. -/
inductive SameMethods : Registration β → Registration β → Prop
  | same (r : Registration β) : SameMethods r r
  | reordered (module name : String) (trusted : Bool) {methods methods' : List (MethodEntry β)}
      (perm : methods.Perm methods') :
    SameMethods (.class module name trusted methods) (.class module name trusted methods')

theorem SameMethods.symm (h : r.SameMethods r') : r'.SameMethods r := by
  cases h with
  | same => exact .same r
  | reordered module name trusted perm => exact .reordered module name trusted perm.symm

theorem SameMethods.makesFunction (same : r.SameMethods r') (made : r.MakesFunction program f) :
    r'.MakesFunction program f := by
  cases same with
  | same => exact made
  | reordered => cases made

theorem SameMethods.exists_class (same : r.SameMethods r') (made : r.MakesClass program k) :
    ∃ k', r'.MakesClass program k' ∧ k'.name = k.name ∧ k.origin = k'.origin ∧
      k.trusted = k'.trusted ∧ k.methods.Perm k'.methods := by
  cases same with
  | same => exact ⟨k, made, rfl, rfl, rfl, .refl _⟩
  | reordered module name trusted perm =>
    cases made with
    | own => exact ⟨_, .own name trusted _, rfl, rfl, rfl, perm⟩
    | other _ _ _ _ foreign => exact ⟨_, .other module name trusted _ foreign, rfl, rfl, rfl, perm⟩

/-- **`Reordered rs rs'`** — the same registrations in another order, with the methods of each class
in another order. -/
def Reordered (rs rs' : List (Registration β)) : Prop :=
  ∃ mid, rs.Perm mid ∧ List.Forall₂ SameMethods mid rs'

theorem Reordered.exists_right (h : Reordered rs rs') (member : r ∈ rs) :
    ∃ r' ∈ rs', r.SameMethods r' := by
  obtain ⟨mid, perm, related⟩ := h
  exact forall₂_mem_left related (perm.mem_iff.mp member)

theorem Reordered.exists_left (h : Reordered rs rs') (member : r' ∈ rs') :
    ∃ r ∈ rs, r.SameMethods r' := by
  obtain ⟨mid, perm, related⟩ := h
  obtain ⟨r, found, same⟩ := forall₂_mem_right related member
  exact ⟨r, perm.mem_iff.mpr found, same⟩

/-- The symbols, or the names of classes, of registrations in another order. -/
theorem Reordered.perm_filterMap {γ : Type} {g : Registration β → Option γ} (h : Reordered rs rs')
    (blind : ∀ {r r'}, SameMethods r r' → g r = g r') :
    (rs.filterMap g).Perm (rs'.filterMap g) := by
  obtain ⟨mid, perm, related⟩ := h
  have same : mid.filterMap g = rs'.filterMap g := by
    clear perm
    induction related with
    | nil => rfl
    | cons first _ ih => simp only [List.filterMap_cons, blind first, ih]
  rw [← same]
  exact perm.filterMap g

theorem Distinct.reordered (distinct : Distinct rs) (h : Reordered rs rs') : Distinct rs' where
  symbols := (h.perm_filterMap fun same => by cases same <;> rfl).nodup_iff.mp distinct.symbols
  classes := (h.perm_filterMap fun same => by cases same <;> rfl).nodup_iff.mp distinct.classes
  methods module name trusted methods member := by
    obtain ⟨r, found, same⟩ := h.exists_left member
    cases same with
    | same => exact distinct.methods _ _ _ _ found
    | reordered _ _ _ perm =>
      exact (perm.map MethodEntry.name).nodup_iff.mp (distinct.methods _ _ _ _ found)

end Registration

namespace Catalog

open Registration

variable {c c' : Catalog β} {program : String} {rs rs' : List (Registration β)}

/-! ## Look-ups -/

/-- **`c.HoldsExactly program rs`** — the catalog finds the functions and classes of the registrations,
each with the methods that are registered with it, and nothing else. -/
structure HoldsExactly (c : Catalog β) (program : String) (rs : List (Registration β)) : Prop where
  program_eq : c.program = program
  functions : ∀ symbol f, c.function? symbol = some f ↔
    f.symbol = symbol ∧ ∃ r ∈ rs, r.MakesFunction program f
  classes : ∀ name k, c.class? name = some k ↔ k.name = name ∧ ∃ r ∈ rs, r.MakesClass program k
  methods : ∀ k, (∃ r ∈ rs, r.MakesClass program k) →
    ∀ name m, k.method? name = some m ↔ m.name = name ∧ m ∈ k.methods

theorem symbols_of :
    (of program rs).functions.map FunctionEntry.symbol = rs.filterMap symbol? := by
  rw [of, List.map_filterMap]
  exact List.filterMap_congr fun r _ => by cases r <;> rfl

theorem classNames_of : (of program rs).classes.map ClassEntry.name = rs.filterMap className? := by
  rw [of, List.map_filterMap]
  exact List.filterMap_congr fun r _ => by cases r <;> rfl

theorem holdsExactly_of (distinct : Distinct rs) (program : String) :
    (of program rs).HoldsExactly program rs where
  program_eq := rfl
  functions symbol f := by
    have keys : ((of program rs).functions.map FunctionEntry.symbol).Nodup :=
      symbols_of ▸ distinct.symbols
    rw [function?, find?_key_eq_some_iff keys, of, List.mem_filterMap]
    simp only [makesFunction_iff]
  classes name k := by
    have keys : ((of program rs).classes.map ClassEntry.name).Nodup :=
      classNames_of ▸ distinct.classes
    rw [class?, find?_key_eq_some_iff keys, of, List.mem_filterMap]
    simp only [makesClass_iff]
  methods k made name m := by
    obtain ⟨r, member, entry⟩ := made
    have keys : (k.methods.map MethodEntry.name).Nodup := by
      cases entry <;> exact distinct.methods _ _ _ _ member
    exact find?_key_eq_some_iff keys

/-! ## Calls under another order -/

/-- Two classes of which every method is found alike. -/
structure AnswersAlike (k k' : ClassEntry β) : Prop where
  origin : k.origin = k'.origin
  trusted : k.trusted = k'.trusted
  method? : ∀ name, k.method? name = k'.method? name

section Order

variable (holds : c.HoldsExactly program rs) (holds' : c'.HoldsExactly program rs')
include holds holds'

theorem function?_eq_of_reordered (h : Reordered rs rs') (symbol : String) :
    c.function? symbol = c'.function? symbol := by
  refine Option.ext fun f => ?_
  rw [holds.functions, holds'.functions]
  refine and_congr_right fun _ => ⟨?_, ?_⟩
  · rintro ⟨r, member, made⟩
    obtain ⟨r', member', same⟩ := h.exists_right member
    exact ⟨r', member', same.makesFunction made⟩
  · rintro ⟨r', member', made⟩
    obtain ⟨r, member, same⟩ := h.exists_left member'
    exact ⟨r, member, same.symm.makesFunction made⟩

/-- A class that is found by one catalog is found by the other. -/
theorem exists_class?_of_sameMethods {name : String} {k : ClassEntry β}
    (partner : ∀ r ∈ rs, ∃ r' ∈ rs', SameMethods r r') (found : c.class? name = some k) :
    ∃ k', c'.class? name = some k' ∧ AnswersAlike k k' := by
  obtain ⟨rfl, r, member, made⟩ := (holds.classes name k).mp found
  obtain ⟨r', member', same⟩ := partner r member
  obtain ⟨k', made', name, origin, trusted, perm⟩ := same.exists_class made
  refine ⟨k', (holds'.classes _ k').mpr ⟨name, r', member', made'⟩, origin, trusted, fun method => ?_⟩
  refine Option.ext fun m => ?_
  rw [holds.methods k ⟨r, member, made⟩, holds'.methods k' ⟨r', member', made'⟩, perm.mem_iff]

theorem class?_rel_of_reordered (h : Reordered rs rs') (name : String) :
    Option.Rel AnswersAlike (c.class? name) (c'.class? name) := by
  cases found : c.class? name with
  | some k =>
    obtain ⟨k', found', alike⟩ := exists_class?_of_sameMethods holds holds'
      (fun r member => h.exists_right member) found
    rw [found']
    exact .some alike
  | none =>
    cases found' : c'.class? name with
    | none => exact .none
    | some k' =>
      obtain ⟨k, found'', -⟩ := exists_class?_of_sameMethods holds' holds
        (fun r' member => (h.exists_left member).imp fun r found => ⟨found.1, found.2.symm⟩) found'
      rw [found] at found''
      cases found''

theorem listing?_eq_of_reordered (h : Reordered rs rs') (callee : Value) :
    c.listing? callee = c'.listing? callee := by
  unfold listing?
  split
  · rw [function?_eq_of_reordered holds holds' h]
  · rename_i className fields name
    have related := class?_rel_of_reordered holds holds' h className
    generalize c.class? className = found, c'.class? className = found' at related ⊢
    cases related with
    | none => rfl
    | some alike => simp only [Option.bind_some, alike.origin, alike.trusted, alike.method?]
  · rfl

theorem originOf_eq_of_reordered (h : Reordered rs rs') (callee : Value) :
    c.originOf callee = c'.originOf callee := by
  unfold originOf
  split
  · rw [function?_eq_of_reordered holds holds' h]
  · rename_i className fields name
    have related := class?_rel_of_reordered holds holds' h className
    generalize c.class? className = found, c'.class? className = found' at related ⊢
    cases related with
    | none => rfl
    | some alike => simp only [alike.origin]
  · rfl
  · rfl

theorem route_eq_of_reordered (h : Reordered rs rs') (callee : Value) :
    c.route callee = c'.route callee := by
  have listed := listing?_eq_of_reordered holds holds' h callee
  cases found : c.listing? callee with
  | some x => rw [route_of_listing found, route_of_listing (listed ▸ found)]
  | none =>
    cases callable : callee.isCallable with
    | true =>
      rw [route_of_unlisted callable found, route_of_unlisted callable (listed ▸ found),
        originOf_eq_of_reordered holds holds' h]
    | false => cases callee <;> first | rfl | cases callable

end Order

theorem alike_of_reordered {c c' : Catalog Body} {rs rs' : List (Registration Body)}
    (holds : c.HoldsExactly program rs) (holds' : c'.HoldsExactly program rs')
    (h : Reordered rs rs') (budget : Option BudgetId) : Gate.Alike ⟨c', budget⟩ ⟨c, budget⟩ where
  budget := rfl
  route callee := (route_eq_of_reordered holds holds' h callee).symm
  sources := by
    simp only [callSources, holds.program_eq, holds'.program_eq]

end Catalog

/-! ## The catalog of what was registered -/

/-- **A catalog holds exactly what was registered.** It is built if and only if no symbol, no name of
a class, and no method of a class is registered twice; then it finds every function, class and method
as registered, and nothing else, so the order of registrations makes no difference to any call.
Otherwise the explanation lists all that is registered again. -/
theorem catalog_holds_registrations (program : String) (rs : List (Registration Body)) :
    ((∃ c, Catalog.build program rs = .ok c) ↔ Registration.Distinct rs) ∧
    (∀ c, Catalog.build program rs = .ok c → c.HoldsExactly program rs ∧
      ∀ rs', Registration.Reordered rs rs' → ∃ c', Catalog.build program rs' = .ok c' ∧
        ∀ budget, Gate.call ⟨c', budget⟩ = Gate.call ⟨c, budget⟩) ∧
    ∀ d, Catalog.build program rs = .error d → d.Lists (Registration.declared rs) := by
  refine ⟨Catalog.exists_build_iff, fun c built => ?_, fun d => Catalog.lists_of_build_eq_error⟩
  obtain ⟨distinct, rfl⟩ := Catalog.build_eq_ok_iff.mp built
  refine ⟨Catalog.holdsExactly_of distinct program, fun rs' reordered => ?_⟩
  have distinct' := distinct.reordered reordered
  refine ⟨_, Catalog.build_eq_ok_iff.mpr ⟨distinct', rfl⟩, fun budget => ?_⟩
  have holds := Catalog.holdsExactly_of distinct program
  have holds' := Catalog.holdsExactly_of distinct' program
  have alike := Catalog.alike_of_reordered holds holds' reordered budget
  exact alike.callAt_eq (Gate.Alike.launchAt_eq nestedRuns) maxDepth

/-- A function and a class with two methods. -/
def tillEntries (methods : List String) : List (Registration Body) :=
  let idle : Body := fun _ _ => .finish (.ok .unit)
  [.program "main" idle, .class "shop" "Till" false (methods.map fun name => ⟨name, none, idle⟩)]

theorem catalog_holds_till :
    (∃ c, Catalog.build "shop" (tillEntries ["open", "shut"]) = .ok c ∧
      c.HoldsExactly "shop" (tillEntries ["open", "shut"]) ∧
      ∃ c', Catalog.build "shop" (tillEntries ["shut", "open"]).reverse = .ok c' ∧
        ∀ budget, Gate.call ⟨c', budget⟩ = Gate.call ⟨c, budget⟩) ∧
    ∃ d, Catalog.build "shop" (tillEntries ["open", "open"]) = .error d ∧
      d.Lists (Registration.declared (tillEntries ["open", "open"])) := by
  have reordered : Registration.Reordered (tillEntries ["open", "shut"])
      (tillEntries ["shut", "open"]).reverse :=
    ⟨_, (List.reverse_perm _).symm,
      .cons (.reordered "shop" "Till" false (.swap _ _ _)) (.cons (.same _) .nil)⟩
  have built := (catalog_holds_registrations "shop" (tillEntries ["open", "shut"])).2.1 _ rfl
  exact ⟨⟨_, rfl, built.1, built.2 _ reordered⟩, _, rfl,
    (catalog_holds_registrations "shop" (tillEntries ["open", "open"])).2.2 _ rfl⟩

end CapabilityGate
