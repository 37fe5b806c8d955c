import CapabilityGate.Proofs.Context.Nearest

/-!
# Held capabilities, listed and looked up

The list of what a lineage holds and the look-up of one capability go through its levels separately,
one gathering all capabilities and the other stopping at the first token that fits.
`Lineage.holds_none_iff` says that they agree: what is found is what is listed, or everything if the
universal capability is listed. `Lineage.types_sorted` says that the list is in strict order.

What a lineage holds only grows when its contexts get more tokens, or when a parent is attached to its
root. `Store.Grown` says of two stores what the later one has kept, and `Store.Grown.types_subset` what
this means for what their lineages hold.
-/
namespace CapabilityGate

/-! ## The list -/

/-- A capability stands in front of another in the order of names. -/
def Capability.Precedes (c d : Capability) : Prop := c.name < d.name

theorem Capability.Precedes.trans {c d e : Capability} (h : c.Precedes d) (h' : d.Precedes e) :
    c.Precedes e :=
  String.lt_trans h h'

theorem Capability.precedes_of_not {c d : Capability} (h : ¬ c.Precedes d) (different : c ≠ d) :
    d.Precedes c := by
  have names : c.name ≠ d.name := fun same => different (by cases c; cases d; cases same; rfl)
  exact Std.lt_of_le_of_ne (String.not_lt.mp h) names.symm

theorem sorted_insertName (c : Capability) {ds : List Capability}
    (h : ds.Pairwise Capability.Precedes) : (insertName c ds).Pairwise Capability.Precedes := by
  induction ds with
  | nil => exact List.pairwise_singleton _ _
  | cons d ds ih =>
    obtain ⟨first, rest⟩ := List.pairwise_cons.mp h
    rw [insertName]
    split
    · rename_i before
      refine List.pairwise_cons.mpr ⟨fun e member => ?_, h⟩
      rcases List.mem_cons.mp member with rfl | later
      · exact before
      · exact Capability.Precedes.trans before (first e later)
    · rename_i notBefore
      split
      · exact h
      · rename_i different
        refine List.pairwise_cons.mpr ⟨fun e member => ?_, ih rest⟩
        rcases mem_insertName.mp member with rfl | later
        · exact Capability.precedes_of_not notBefore different
        · exact first e later

theorem sorted_sortNames (cs : List Capability) : (sortNames cs).Pairwise Capability.Precedes := by
  unfold sortNames
  induction cs with
  | nil => exact .nil
  | cons c cs ih => exact sorted_insertName c ih

/-- The capabilities that a context has tokens for. -/
def Context.capabilities (x : Context) : List Capability := x.tokens.map Token.capability

theorem Context.isSome_tokenFor?_iff {x : Context} {c : Capability} :
    (x.tokenFor? c).isSome = true ↔ c ∈ x.capabilities := by
  simp [tokenFor?, capabilities]

namespace Lineage

variable {l l' : Lineage} {c : Capability} {ancestors : Bool}

/-- **What is listed is in strict order**, so nothing is listed twice. -/
theorem types_sorted (l : Lineage) (ancestors : Bool) :
    (l.types ancestors).Pairwise Capability.Precedes :=
  sorted_sortNames _

theorem types_nodup (l : Lineage) (ancestors : Bool) : (l.types ancestors).Nodup := by
  refine (l.types_sorted ancestors).imp fun {c d} before same => ?_
  subst same
  exact String.lt_irrefl _ before

theorem mem_types : c ∈ l.types ancestors ↔ ∃ x ∈ l.scope ancestors, c ∈ x.capabilities := by
  rw [types, mem_sortNames, List.mem_flatMap]
  rfl

/-! ## The look-up -/

theorem holds_none_eq : l.holds c none ancestors = (l.token? c ancestors).isSome := by
  unfold holds
  cases l.token? c ancestors <;> rfl

/-- **What is found is what is listed**, or everything if the universal capability is. -/
theorem holds_none_iff :
    l.holds c none ancestors = true ↔
      c ∈ l.types ancestors ∨ Capability.universal ∈ l.types ancestors := by
  rw [holds_none_eq, token?, List.findSome?_isSome_iff, mem_types, mem_types]
  have level : ∀ x : Context, (x.token? c).isSome = true ↔
      c ∈ x.capabilities ∨ Capability.universal ∈ x.capabilities := fun x => by
    rw [Context.token?, Option.isSome_or, Bool.or_eq_true, Context.isSome_tokenFor?_iff,
      Context.isSome_tokenFor?_iff]
  constructor
  · rintro ⟨x, member, found⟩
    rcases (level x).mp found with exact | all
    · exact .inl ⟨x, member, exact⟩
    · exact .inr ⟨x, member, all⟩
  · rintro (⟨x, member, exact⟩ | ⟨x, member, all⟩)
    · exact ⟨x, member, (level x).mpr (.inl exact)⟩
    · exact ⟨x, member, (level x).mpr (.inr all)⟩

/-- A lineage whose list has all that another one lists holds all that the other one holds. -/
theorem holds_of_types_subset (listed : l.types true ⊆ l'.types true)
    (held : l.holds c none true = true) : l'.holds c none true = true := by
  rcases holds_none_iff.mp held with exact | all
  · exact holds_none_iff.mpr (.inl (listed exact))
  · exact holds_none_iff.mpr (.inr (listed all))

end Lineage

/-! ## Stores that have grown -/

theorem Context.capabilities_add (x : Context) (t : Token) :
    x.capabilities ⊆ (x.add t).capabilities := by
  intro c member
  rw [← isSome_tokenFor?_iff] at member ⊢
  rw [tokenFor?_add]
  split
  · rfl
  · exact member

/-- The context with another parent. -/
def Context.withParent (x : Context) (parent : ContextId) : Context :=
  { x with parent := some parent }

namespace Store

variable {s s' : Store}

/-- One context changed, its number and its holders kept. -/
def change (s : Store) (id : ContextId) (f : Context → Context) : Store :=
  { s with contexts := s.contexts.modify id f }

/-- **`s.grant id t`** — one context with one token more. -/
def grant (s : Store) (id : ContextId) (t : Token) : Store := s.change id (·.add t)

/-- **`s.adopt id parent`** — one context with another parent. -/
def adopt (s : Store) (id parent : ContextId) : Store := s.change id (·.withParent parent)

/-- Every context is still there, has tokens for all that it had tokens for, and is linked to the
parent that it was linked to, if to any. -/
def Grown (s s' : Store) : Prop :=
  ∀ id x, s.find? id = some x → ∃ x', s'.find? id = some x' ∧ x.capabilities ⊆ x'.capabilities ∧
    ∀ p, s.reachable? id x.parent = some p → s'.reachable? id x'.parent = some p

/-- Each level of a lineage is still there in a store that has grown. -/
theorem Grown.levels (grown : s.Grown s') (id : ContextId) :
    ∀ x ∈ s.lineageOf id, ∃ x' ∈ s'.lineageOf id, x.capabilities ⊆ x'.capabilities := by
  induction id using Nat.strongRecOn with
  | ind id ih =>
    intro y member
    rw [lineageOf] at member ⊢
    cases found : s.find? id with
    | none =>
      rw [found] at member
      cases member
    | some x =>
      obtain ⟨x', found', more, linked⟩ := grown id x found
      rw [found] at member
      rw [found']
      rcases List.mem_cons.mp member with rfl | above
      · exact ⟨x', List.mem_cons_self, more⟩
      · cases link : s.reachable? id x.parent with
        | none =>
          rw [link] at above
          cases above
        | some p =>
          rw [link] at above
          obtain ⟨y', above', more'⟩ := ih p.val p.isLt y above
          refine ⟨y', List.mem_cons_of_mem _ ?_, more'⟩
          rw [linked p link]
          exact above'

/-- **What a lineage holds only grows** with its store. -/
theorem Grown.types_subset (grown : s.Grown s') (id : ContextId) :
    (s.lineageOf id).types true ⊆ (s'.lineageOf id).types true := by
  intro c member
  obtain ⟨x, level, held⟩ := Lineage.mem_types.mp member
  obtain ⟨x', level', more⟩ := grown.levels id x level
  exact Lineage.mem_types.mpr ⟨x', level', more held⟩

theorem find?_change {id other : ContextId} {f : Context → Context} :
    (s.change id f).find? other = (s.find? other).map fun x => if id = other then f x else x :=
  List.getElem?_modify f id s.contexts other

theorem grown_grant (s : Store) (id : ContextId) (t : Token) : s.Grown (s.grant id t) := by
  intro other x found
  refine ⟨if id = other then x.add t else x, ?_, ?_, ?_⟩
  · rw [grant, find?_change, found, Option.map_some]
  · split
    · exact x.capabilities_add t
    · exact List.Subset.refl _
  · intro p link
    -- Holders and parents are those of before.
    split
    · exact link
    · exact link

/-- A parent that can be reached from an older context can be reached from a younger one. -/
theorem reachable?_of_le {id bound : ContextId} (older : id ≤ bound) {parent : Option ContextId}
    {p : Fin id} (link : s.reachable? id parent = some p) :
    s.reachable? bound parent = some (p.castLE older) := by
  unfold reachable? at link ⊢
  cases parent with
  | none => cases link
  | some q =>
    dsimp only at link ⊢
    split at link
    · rename_i below
      rw [dif_pos (Nat.lt_of_lt_of_le below older)]
      split at link
      · rename_i alive
        rw [if_pos alive]
        cases link
        rfl
      · cases link
    · cases link

/-- A root may get any parent: it was linked to none. -/
theorem grown_adopt {id : ContextId} {x : Context} (found : s.find? id = some x)
    (root : s.parent? x = none) (parent : ContextId) : s.Grown (s.adopt id parent) := by
  intro other y found'
  refine ⟨if id = other then y.withParent parent else y, ?_, ?_, ?_⟩
  · rw [adopt, find?_change, found', Option.map_some]
  · split
    · exact List.Subset.refl _
    · exact List.Subset.refl _
  · intro p link
    split
    · rename_i same
      subst same
      obtain rfl : x = y := Option.some.inj (found.symm.trans found')
      have there : id < s.contexts.length := (List.getElem?_eq_some_iff.mp found).1
      rw [parent?, reachable?_of_le (Nat.le_of_lt there) link, Option.bind_some] at root
      have older : p.val < s.contexts.length := Nat.lt_trans p.isLt there
      exact absurd (List.getElem?_eq_none_iff.mp root) (Nat.not_le_of_lt older)
    · exact link

end Store

end CapabilityGate
