import CapabilityGate.Proofs.Admission.Checkpoint
import CapabilityGate.Proofs.Context.Lineage
import Mathlib.Data.List.Induction

/-!
# The nearest token decides

A context is made by adding tokens, is shared with a parent that was there before it, and may be held
and let go by many. `Store.Event` lists what can happen, and `Store.after` is what a history leads to:
parents are always older than their children (`Store.ordered_after`), so a walk through the parents
that are still held comes to an end.

`Store.Decides` is that walk, one rule for each way it can go on: the exact token of a level, the
universal one, the next parent, or no answer where the link is dead. `Store.decides_iff` says that the
walk and the question to a lineage have the same answers, and `nearest_token_decides` that everything
else that is asked of a context, by the gate too, goes by this one answer.
-/
namespace CapabilityGate

/-! ## Contexts as they are made -/

namespace Context

variable {x : Context} {t : Token} {c : Capability}

/-- A context to which tokens have been added, one after the other. -/
def made (name : String) (parent : Option ContextId) (additions : List Token) : Context :=
  additions.foldl add (empty name parent)

theorem tokenFor?_add :
    (x.add t).tokenFor? c = if t.capability = c then some t else x.tokenFor? c := by
  show (t :: others t.capability x.tokens).find? (·.capability = c) = _
  by_cases same : t.capability = c
  · rw [List.find?_cons_of_pos (by simpa using same), if_pos same]
  · rw [List.find?_cons_of_neg (by simpa using same), if_neg same, others, List.find?_filter]
    -- A token for `c` is none of those that were replaced.
    refine congrArg (List.find? · x.tokens) (funext fun u => ?_)
    by_cases hit : u.capability = c
    · simp [hit, Ne.symm same]
    · simp [hit]

/-- **The last token that was added for a capability counts.** -/
theorem tokenFor?_made (name : String) (parent : Option ContextId) (additions : List Token) :
    (made name parent additions).tokenFor? c =
      (additions.filter (·.capability = c)).getLast? := by
  induction additions using List.reverseRecOn with
  | nil => rfl
  | append_singleton additions t ih =>
    rw [made, List.foldl_append]
    show ((made name parent additions).add t).tokenFor? c = _
    rw [tokenFor?_add, ih, List.filter_append]
    by_cases same : t.capability = c
    · simp [same]
    · simp [same]

end Context

namespace Store

/-! ## Histories -/

/-- What happens to the shared contexts. -/
inductive Event where
  /-- A context is made and shared. -/
  | share (name : String) (parent : Option ContextId) (additions : List Token)
  /-- Somebody else holds a context, too. -/
  | hold (id : ContextId)
  /-- One holder lets go of a context. -/
  | release (id : ContextId)

/-- What an event makes of the shared contexts. Only a context that is there can become a parent, and
only one that is held can be held once more. -/
def occur (s : Store) : Event → Store
  | .share name parent additions =>
    s.share (Context.made name (parent.filter (· < s.contexts.length)) additions)
  | .hold id => if s.isAlive id then s.hold id else s
  | .release id => s.release id

/-- **`after history`** — the shared contexts after everything that happened, oldest event first. -/
def after (history : List Event) : Store := history.foldl occur empty

/-- Every parent is older than its child. -/
def Ordered (s : Store) : Prop :=
  ∀ id x, s.find? id = some x → ∀ p, x.parent = some p → p < id

variable {s : Store} {x y : Context} {c : Capability}

theorem parent_made (name : String) (parent : Option ContextId) (additions : List Token) :
    (Context.made name parent additions).parent = parent := by
  induction additions using List.reverseRecOn with
  | nil => rfl
  | append_singleton additions t ih =>
    rw [Context.made, List.foldl_append]
    exact ih

theorem Ordered.share (h : s.Ordered) (known : ∀ p, x.parent = some p → p < s.contexts.length) :
    (s.share x).Ordered := by
  intro id y found p parent
  have found : (s.contexts ++ [x])[id]? = some y := found
  rcases Nat.lt_or_ge id s.contexts.length with old | new
  · rw [List.getElem?_append_left old] at found
    exact h id y found p parent
  · rw [List.getElem?_append_right new, List.getElem?_singleton] at found
    split at found
    · cases found
      exact Nat.lt_of_lt_of_le (known p parent) new
    · cases found

theorem Ordered.occur (h : s.Ordered) (e : Event) : (s.occur e).Ordered := by
  cases e with
  | share name parent additions =>
    refine h.share fun p hp => ?_
    rw [parent_made, Option.filter_eq_some_iff] at hp
    exact of_decide_eq_true hp.2
  | hold id =>
    show (if s.isAlive id then s.hold id else s).Ordered
    split
    · exact h
    · exact h
  | release id => exact h

theorem ordered_after (history : List Event) : (after history).Ordered := by
  induction history using List.reverseRecOn with
  | nil =>
    intro id x found
    cases found
  | append_singleton history e ih =>
    rw [after, List.foldl_append]
    exact ih.occur e

/-! ## The walk through the parents -/

/-- **`s.Decides c x answer`** — asked for `c`, the walk that begins at `x` ends with this answer. -/
inductive Decides (s : Store) (c : Capability) : Context → Option Token → Prop where
  /-- The level has a token for exactly this capability. -/
  | exact {x : Context} {t : Token} (own : x.tokenFor? c = some t) : Decides s c x (some t)
  /-- The level has none for it, but the universal one. -/
  | universal {x : Context} {t : Token} (own : x.tokenFor? c = none)
      (all : x.tokenFor? Capability.universal = some t) : Decides s c x (some t)
  /-- The level has neither, and somebody holds the parent. -/
  | further {x y : Context} {answer : Option Token} (own : x.tokenFor? c = none)
      (all : x.tokenFor? Capability.universal = none) (link : s.parent? x = some y)
      (onward : Decides s c y answer) : Decides s c x answer
  /-- The level has neither, and nothing can be reached behind it. -/
  | exhausted {x : Context} (own : x.tokenFor? c = none)
      (all : x.tokenFor? Capability.universal = none) (link : s.parent? x = none) :
      Decides s c x none

/-- A shared context has the lineage that it would have if it were not shared yet. -/
theorem lineageOf_eq (ordered : s.Ordered) {id : ContextId} (found : s.find? id = some x) :
    s.lineageOf id = s.lineage x := by
  have there : id < s.contexts.length := (List.getElem?_eq_some_iff.mp found).1
  rw [lineageOf, found, lineage]
  dsimp only
  cases parent : x.parent with
  | none => rfl
  | some p =>
    have older := ordered id x found p parent
    by_cases alive : s.isAlive p = true
    · simp [reachable?, older, Nat.lt_trans older there, alive]
    · simp [reachable?, older, Nat.lt_trans older there, alive]

/-- Behind a context stands the lineage of its parent, while somebody holds that. -/
theorem lineage_eq (ordered : s.Ordered) :
    s.lineage x = x :: ((s.parent? x).map s.lineage).getD [] := by
  rw [lineage, parent?]
  cases reached : s.reachable? s.contexts.length x.parent with
  | none => rfl
  | some p =>
    have found : s.find? p.val = some s.contexts[p] := List.getElem?_eq_getElem p.isLt
    simp only [Option.bind_some, found, Option.map_some, Option.getD_some]
    rw [lineageOf_eq ordered found]

end Store

namespace Lineage

variable {x : Context} {l : Lineage} {c : Capability}

theorem token?_cons : token? (x :: l) c true = (x.token? c).or (l.token? c true) := by
  simp only [token?, scope, if_true, List.findSome?_cons]
  cases x.token? c <;> rfl

theorem token?_own : token? (x :: l) c false = x.token? c := by
  simp only [token?, scope, Bool.false_eq_true, if_false, List.take_succ_cons, List.take_zero,
    List.findSome?_cons, List.findSome?_nil]
  cases x.token? c <;> rfl

/-- What is held goes by the token that is found. -/
theorem holds_iff {resource : Option String} {ancestors : Bool} :
    l.holds c resource ancestors = true ↔
      ∃ t, l.token? c ancestors = some t ∧ ∀ r, resource = some r → t.covers (some r) = true := by
  unfold holds
  cases l.token? c ancestors with
  | none => simp
  | some t => cases resource <;> simp

end Lineage

namespace Store

variable {s : Store} {x : Context} {c : Capability} {answer : Option Token}

theorem Decides.eq_token? (ordered : s.Ordered) (h : s.Decides c x answer) :
    (s.lineage x).token? c true = answer := by
  induction h with
  | exact own =>
    rw [lineage_eq ordered, Lineage.token?_cons, Context.token?, own]
    rfl
  | universal own all =>
    rw [lineage_eq ordered, Lineage.token?_cons, Context.token?, own, all]
    rfl
  | further own all link _ ih =>
    rw [lineage_eq ordered, Lineage.token?_cons, Context.token?, own, all, link]
    exact ih
  | exhausted own all link =>
    rw [lineage_eq ordered, Lineage.token?_cons, Context.token?, own, all, link]
    rfl

theorem decides_token? (ordered : s.Ordered) (x : Context) :
    s.Decides c x ((s.lineage x).token? c true) := by
  -- On the length of the lineage: that of the parent is shorter.
  induction length : (s.lineage x).length using Nat.strongRecOn generalizing x with
  | ind n ih =>
    rw [lineage_eq ordered] at length ⊢
    rw [Lineage.token?_cons, Context.token?]
    cases own : x.tokenFor? c with
    | some t => exact .exact own
    | none =>
      cases all : x.tokenFor? Capability.universal with
      | some t => exact .universal own all
      | none =>
        cases link : s.parent? x with
        | none => exact .exhausted own all link
        | some y =>
          refine .further own all link (ih _ ?_ y rfl)
          rw [← length, link]
          exact Nat.lt_succ_self _

/-- **The walk and the question to the lineage have the same answer**, and there is one. -/
theorem decides_iff (ordered : s.Ordered) :
    s.Decides c x answer ↔ (s.lineage x).token? c true = answer := by
  refine ⟨fun h => h.eq_token? ordered, ?_⟩
  rintro rfl
  exact decides_token? ordered x

end Store

/-! ## One answer for all who ask -/

/-- **The nearest token decides.** After every history, for every context, whoever of its forebears is
still held, and every capability: the walk through the parents ends with one answer, the token that is
found. Without the parents the context itself is asked. On each level the last token counts that was
added for a capability. A capability is held if a token is found for it and covers the resource, if
one is given. And where the context is active and the budget is live, the gate hands out that token if
it covers the resource; else the resource is denied and one record is logged. -/
theorem nearest_token_decides (history : List Store.Event) (x : Context) (c : Capability) :
    let s := Store.after history
    let l := s.lineage x
    (∀ answer, s.Decides c x answer ↔ l.token? c true = answer) ∧
    l.token? c false = (x.tokenFor? c).or (x.tokenFor? Capability.universal) ∧
    (∀ name parent additions, (Context.made name parent additions).tokenFor? c =
      (additions.filter (·.capability = c)).getLast?) ∧
    (∀ resource ancestors, l.holds c resource ancestors = true ↔
      ∃ t, l.token? c ancestors = some t ∧ ∀ r, resource = some r → t.covers (some r) = true) ∧
    ∀ (g : Gate) (m : Machine) (id : ContextId) (resource operation : String),
      m.world.store = s → s.find? id = some x →
      m.thread.register.visible m.world.isRevoked = some id →
      m.world.isExhausted g.budget = false →
      (l.holds c (some resource) true = true → ∃ t, l.token? c true = some t ∧
        g.coveringToken c resource operation m = (.ok t, m)) ∧
      (l.holds c (some resource) true = false →
        g.coveringToken c resource operation m =
          (.error (.resourceDenied c resource),
            { m with world := { m.world with
                log := m.world.log.append ⟨c, some resource, operation, m.world.clock⟩ } })) := by
  intro s l
  have ordered : s.Ordered := Store.ordered_after history
  refine ⟨fun _ => Store.decides_iff ordered, Lineage.token?_own, Context.tokenFor?_made,
    fun _ _ => Lineage.holds_iff, ?_⟩
  intro g m id resource operation store found active live
  have visible : m.visible = some l := by
    rw [Machine.visible, active, store, Option.map_some, Store.lineageOf_eq ordered found]
  have nearest : (m.visible.bind fun l => l.token? c true) = l.token? c true := by
    rw [visible, Option.bind_some]
  rcases g.coveringToken_cases m c resource operation with
    ⟨exhausted, -⟩ | ⟨-, t, token, covers, answer⟩ | ⟨-, uncovered, answer⟩
  · rw [live] at exhausted
    cases exhausted
  · rw [nearest] at token
    have held : l.holds c (some resource) true = true :=
      Lineage.holds_iff.mpr ⟨t, token, fun r same => Option.some.inj same ▸ covers⟩
    refine ⟨fun _ => ⟨t, token, answer⟩, fun refused => ?_⟩
    rw [held] at refused
    cases refused
  · rw [nearest] at uncovered
    refine ⟨fun held => ?_, fun _ => answer⟩
    obtain ⟨t, token, covers⟩ := Lineage.holds_iff.mp held
    have covered := covers resource rfl
    rw [uncovered t token] at covered
    cases covered

/-! ## A chain with a dead link -/

/-- A token for the files of one directory. -/
def deskToken : Token := ⟨⟨"file.read"⟩, some ⟨[⟨"/desk/*", by decide⟩]⟩⟩

/-- A root with the universal token, a desk below it and a drawer below the desk; then the root is let
go. -/
def deskHistory : List Store.Event :=
  [.share "root" none [.universal], .share "desk" (some 0) [deskToken],
    .share "drawer" (some 1) [.unrestricted ⟨"net.http"⟩], .release 0]

/-- The context that is shared last. -/
def drawer : Context := .made "drawer" (some 1) [.unrestricted ⟨"net.http"⟩]

/-- A thread on which the drawer is active. -/
def atDrawer : Machine := ⟨{ World.initial with store := .after deskHistory }, ⟨some ⟨2, none⟩, 0⟩⟩

/-- At the drawer, the token of the desk decides about a file in its directory. The universal token of
the root is behind the dead link, so for what neither drawer nor desk holds there is nothing. -/
theorem nearest_token_decides_desk :
    (Store.after deskHistory).find? 2 = some drawer ∧
      atDrawer.thread.register.visible atDrawer.world.isRevoked = some 2 ∧
      atDrawer.world.isExhausted vaultGate.budget = false ∧
      vaultGate.coveringToken ⟨"file.read"⟩ "/desk/a" "fs.read" atDrawer =
        (.ok deskToken, atDrawer) ∧
      vaultGate.coveringToken ⟨"db.query"⟩ "users" "db.find" atDrawer =
        (.error (.resourceDenied ⟨"db.query"⟩ "users"),
          { atDrawer with world := { atDrawer.world with
              log := Log.empty.append ⟨⟨"db.query"⟩, some "users", "db.find", 0⟩ } }) := by
  let desk : Context := .made "desk" (some 0) [deskToken]
  have link : (Store.after deskHistory).parent? drawer = some desk := rfl
  have dead : (Store.after deskHistory).parent? desk = none := rfl
  obtain ⟨walk, -, -, holds, gate⟩ := nearest_token_decides deskHistory drawer ⟨"file.read"⟩
  have found := (walk (some deskToken)).mp (.further rfl rfl link (.exact rfl))
  have held := (holds (some "/desk/a") true).mpr ⟨deskToken, found, by rintro r ⟨rfl⟩; decide⟩
  obtain ⟨t, same, answer⟩ := (gate vaultGate atDrawer 2 "/desk/a" "fs.read" rfl rfl rfl rfl).1 held
  obtain rfl : t = deskToken := Option.some.inj (same.symm.trans found)
  obtain ⟨walk, -, -, holds, gate⟩ := nearest_token_decides deskHistory drawer ⟨"db.query"⟩
  have nothing := (walk none).mp (.further rfl rfl link (.exhausted rfl rfl dead))
  have refused : ((Store.after deskHistory).lineage drawer).holds ⟨"db.query"⟩ (some "users") true =
      false := by
    rw [← Bool.not_eq_true, holds]
    rintro ⟨t, token, -⟩
    exact Option.some_ne_none t (token.symm.trans nothing)
  exact ⟨rfl, rfl, rfl, answer,
    (gate vaultGate atDrawer 2 "users" "db.find" rfl rfl rfl rfl).2 refused⟩

end CapabilityGate
