import CapabilityGate.Context.Basic

/-!
# What a lineage grants, and what it depends on

A level that holds the universal token answers every question for a token itself, so nothing behind
it is asked. `Lineage.mem_types_universal_iff` says what such a level adds to the capabilities that
are named. Who holds a context decides whether its children see it. `Store.lineageOf_congr` says on
what the lineage of a context depends: on the contexts up to its number, and on which of them are
held.
-/
namespace CapabilityGate

theorem mem_insertName {c d : Capability} {ds : List Capability} :
    c ∈ insertName d ds ↔ c = d ∨ c ∈ ds := by
  induction ds with
  | nil => simp [insertName]
  | cons e ds ih =>
    unfold insertName
    split
    · simp
    · split
      · rename_i same
        subst same
        simp
      · rw [List.mem_cons, List.mem_cons, ih]
        constructor
        · rintro (rfl | rfl | later)
          · exact .inr (.inl rfl)
          · exact .inl rfl
          · exact .inr (.inr later)
        · rintro (rfl | rfl | later)
          · exact .inr (.inl rfl)
          · exact .inl rfl
          · exact .inr (.inr later)

theorem mem_sortNames {c : Capability} {cs : List Capability} : c ∈ sortNames cs ↔ c ∈ cs := by
  unfold sortNames
  induction cs with
  | nil => simp
  | cons d cs ih => rw [List.foldr_cons, mem_insertName, ih, List.mem_cons]

namespace Lineage

variable {x : Context} {l : Lineage}

theorem mem_types_iff {c : Capability} :
    c ∈ l.types true ↔ ∃ x ∈ l, ∃ t ∈ x.tokens, t.capability = c := by
  rw [types, mem_sortNames]
  simp [scope]

variable (universal : x.tokens = [Token.universal])
include universal

/-- A level with the universal token has one for everything. -/
theorem token?_of_universal (c : Capability) :
    token? (x :: l) c true = some Token.universal := by
  have own : x.token? c = some Token.universal := by
    unfold Context.token? Context.tokenFor?
    rw [universal]
    by_cases same : Capability.universal = c <;> simp [same, Token.universal, Token.unrestricted]
  simp [token?, scope, own]

theorem holds_of_universal (c : Capability) : holds (x :: l) c none true = true := by
  unfold holds
  rw [token?_of_universal universal]

/-- The universal token adds its own capability to those that are named, and no other. -/
theorem mem_types_universal_iff {c : Capability} :
    c ∈ types (x :: l) true ↔ c = Capability.universal ∨ c ∈ l.types true := by
  rw [mem_types_iff, mem_types_iff]
  simp [universal, Token.universal, Token.unrestricted, eq_comm]

end Lineage

namespace Store

variable {s s' : Store}

/-! ## Holders -/

variable {id other : ContextId}

theorem isAlive_iff : s.isAlive id = true ↔ 0 < s.holders id := by
  simp [isAlive, holders, List.count_pos_iff]

theorem isAlive_congr (same : 0 < s.holders id ↔ 0 < s'.holders id) :
    s.isAlive id = s'.isAlive id := by
  rw [Bool.eq_iff_iff, isAlive_iff, isAlive_iff]
  exact same

theorem isAlive_hold : (s.hold id).isAlive other = (other == id || s.isAlive other) :=
  List.contains_cons

theorem holders_hold : (s.hold id).holders other = s.holders other + if id = other then 1 else 0 := by
  simp [holders, hold, List.count_cons]

theorem holders_release :
    (s.release id).holders other = s.holders other - if id = other then 1 else 0 := by
  simp [holders, release, List.count_erase]

/-! ## Lineages -/

/-- The lineage of a context whose parent can be reached. -/
theorem lineageOf_child {id parent : ContextId} {x : Context} (found : s.find? id = some x)
    (hparent : x.parent = some parent) (older : parent < id) (alive : s.isAlive parent = true) :
    s.lineageOf id = x :: s.lineageOf parent := by
  rw [lineageOf, found]
  simp [reachable?, hparent, older, alive]

/-- A lineage depends on older contexts only, and on which of them somebody holds. -/
theorem lineageOf_congr {bound : Nat} (contexts : ∀ id < bound, s.find? id = s'.find? id)
    (alive : ∀ id < bound, s.isAlive id = s'.isAlive id) {id : ContextId} (older : id < bound) :
    s.lineageOf id = s'.lineageOf id := by
  induction id using Nat.strongRecOn with
  | ind id ih =>
    rw [lineageOf, lineageOf, contexts id older]
    cases s'.find? id with
    | none => rfl
    | some x =>
      have parent : s.reachable? id x.parent = s'.reachable? id x.parent := by
        unfold reachable?
        cases x.parent with
        | none => rfl
        | some p =>
          by_cases h : p < id
          · simp only [dif_pos h, alive p (Nat.lt_trans h older)]
          · simp only [dif_neg h]
      dsimp only
      rw [parent]
      cases s'.reachable? id x.parent with
      | none => rfl
      | some p => exact congrArg (x :: ·) (ih p.val p.isLt (Nat.lt_trans p.isLt older))

/-- The same contexts below `n`, with the same number of holders each. -/
structure SameBelow (n : Nat) (s s' : Store) : Prop where
  contexts : ∀ id < n, s.find? id = s'.find? id
  holders : ∀ id < n, s.holders id = s'.holders id

namespace SameBelow

variable {n : Nat} (same : s.SameBelow n s')
include same

theorem lineageOf {id : ContextId} (older : id < n) : s.lineageOf id = s'.lineageOf id :=
  lineageOf_congr same.contexts
    (fun id older => isAlive_congr (by rw [same.holders id older])) older

theorem hold (id : ContextId) : (s.hold id).SameBelow n (s'.hold id) := by
  refine ⟨same.contexts, fun other older => ?_⟩
  rw [holders_hold, holders_hold, same.holders other older]

theorem release (id : ContextId) : (s.release id).SameBelow n (s'.release id) := by
  refine ⟨same.contexts, fun other older => ?_⟩
  rw [holders_release, holders_release, same.holders other older]

end SameBelow

end Store

end CapabilityGate
