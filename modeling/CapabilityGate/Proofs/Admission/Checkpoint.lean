import CapabilityGate.Proofs.Admission.Decision

/-!
# What the checkpoint says on every machine

`Catalog.decision` decides about a call when the budget is live and one more call may be in progress.
`Gate.decision` decides about every call: the budget and the depth of the thread come first.
`Gate.checkedCall_eq_carryOut` says that the checkpoint carries out this decision, so all that a body
does happens after the decision about its call, and what is refused is refused at once.
-/
namespace CapabilityGate

/-! ## Decisions from routes -/

/-- What a route comes to for a caller. -/
def Route.decision (c : Catalog Body) (visible : Option Lineage) (callee : Value)
    (args : List Value) : Route Body → Decision
  | notCallable => .refuse (.type s!"{callee.describe} is not callable")
  | gated _ r receiver body =>
    if r.MetBy visible then .enter receiver body
    else .lacking (r.lackedBy visible) (heldTypes visible) (r.resource args)
  | free receiver body => .enter receiver body
  | primitive method receiver => .primitive method receiver
  | denied symbol origin => .refuse (.security symbol origin c.callSources)

namespace Catalog

variable {c : Catalog Body} {callee : Value} {args : List Value} {visible : Option Lineage}

theorem route_of_not_callable (hc : callee.isCallable = false) : c.route callee = .notCallable := by
  cases callee <;> first | rfl | cases hc

/-- The rules for a call are read off its route. -/
theorem decision_eq_route :
    c.decision visible callee args = (c.route callee).decision c visible callee args := by
  cases hc : callee.isCallable with
  | false =>
    rw [decision_of_not_callable hc, route_of_not_callable hc]
    rfl
  | true =>
    cases hx : c.listing? callee with
    | none =>
      rw [decision_of_unlisted hc hx, route_of_unlisted hc hx]
      cases primitive? callee <;> rfl
    | some x =>
      rw [decision_of_listing hx, route_of_listing hx]
      cases x.requirement with
      | some r => rfl
      | none => cases x.origin.isProgram || x.trusted <;> rfl

/-- A gated route names the symbol of its callee. -/
theorem symbol_of_gated {symbol : String} {r : Requirement} {receiver : Value} {body : Body}
    (gated : c.route callee = .gated symbol r receiver body) : callee.symbol = symbol := by
  have hc : callee.isCallable = true := isCallable_of_route (c := c) (by simp [gated])
  cases hx : c.listing? callee with
  | none =>
    rw [route_of_unlisted hc hx] at gated
    split at gated <;> cases gated
  | some x =>
    rw [route_of_listing hx] at gated
    split at gated
    · cases gated
      rfl
    · split at gated <;> cases gated

/-- Who asks makes a difference only to a call that requires capabilities: what is not refused for
them is decided as for somebody who holds everything. -/
theorem decision_eq_or_lacking {all : Option Lineage} (met : ∀ r : Requirement, r.MetBy all) :
    c.decision visible callee args = c.decision all callee args ∨
      ∃ missing held resource, c.decision visible callee args = .lacking missing held resource := by
  rw [decision_eq_route, decision_eq_route]
  cases c.route callee with
  | gated symbol r receiver body =>
    have admitted : Route.decision c all callee args (.gated symbol r receiver body) =
        .enter receiver body := if_pos (met r)
    by_cases hmet : r.MetBy visible
    · refine .inl ?_
      rw [admitted]
      exact if_pos hmet
    · exact .inr ⟨_, _, _, if_neg hmet⟩
  | notCallable | free | primitive | denied => exact .inl rfl

/-- Capabilities are missing exactly if the callee has a requirement that is not met. -/
theorem decision_eq_lacking_iff {missing held : List Capability} {resource : Option String} :
    c.decision visible callee args = .lacking missing held resource ↔
      ∃ r, (c.listing? callee).bind Listing.requirement = some r ∧ ¬ r.MetBy visible ∧
        missing = r.lackedBy visible ∧ held = heldTypes visible ∧ resource = r.resource args := by
  cases hx : c.listing? callee with
  | none =>
    cases hc : callee.isCallable with
    | false => simp [decision_of_not_callable hc]
    | true =>
      rw [decision_of_unlisted hc hx]
      cases primitive? callee <;> simp
  | some x =>
    rw [decision_of_listing hx, Option.bind_some]
    cases x.requirement with
    | none => cases x.origin.isProgram || x.trusted <;> simp
    | some r =>
      by_cases hmet : r.MetBy visible
      · simp [hmet]
      · simp only [if_neg hmet, Decision.lacking.injEq, Option.some.injEq, exists_eq_left']
        constructor
        · rintro ⟨rfl, rfl, rfl⟩
          exact ⟨hmet, rfl, rfl, rfl⟩
        · rintro ⟨-, rfl, rfl, rfl⟩
          exact ⟨rfl, rfl, rfl⟩

end Catalog

/-! ## The checkpoint -/

/-- A check of a live budget changes nothing. -/
theorem Machine.afterCheck_of_live {m : Machine} {budget : Option BudgetId}
    (live : m.world.isExhausted budget = false) : m.afterCheck budget = m := by
  show (⟨m.world.afterCheck budget, m.thread⟩ : Machine) = m
  rw [World.afterCheck_of_live live]

namespace Gate

/-- **`g.decision callee args m`** — what becomes of a call on a machine. -/
def decision (g : Gate) (callee : Value) (args : List Value) (m : Machine) : Decision :=
  if m.world.isExhausted g.budget then .refuse (.exhausted .timeout)
  else if callee.isCallable && maxDepth ≤ m.thread.depth then .refuse depthFault
  else g.catalog.decision m.visible callee args

variable (g : Gate) (run : Script → Activity Ending) (callee : Value) (args : List Value)
  (m : Machine)

/-- **When a call is refused for capabilities**: the budget is live, one more call may be in progress,
and the callee has a requirement that is not met. -/
theorem decision_eq_lacking_iff {missing held : List Capability} {resource : Option String} :
    g.decision callee args m = .lacking missing held resource ↔
      m.world.isExhausted g.budget = false ∧ m.thread.depth < maxDepth ∧
      ∃ r, (g.catalog.listing? callee).bind Listing.requirement = some r ∧ ¬ r.MetBy m.visible ∧
        missing = r.lackedBy m.visible ∧ held = heldTypes m.visible ∧
        resource = r.resource args := by
  unfold decision
  cases m.world.isExhausted g.budget with
  | true => simp
  | false =>
    rw [if_neg Bool.false_ne_true, ← Catalog.decision_eq_lacking_iff]
    by_cases room : m.thread.depth < maxDepth
    · have within : ¬ maxDepth ≤ m.thread.depth := Nat.not_le_of_lt room
      simp [room, within]
    · cases hc : callee.isCallable with
      | true => simp [room, Nat.le_of_not_lt room]
      | false => simp [room, Catalog.decision_of_not_callable hc]

/-- A route that is followed while the call is counted comes to its decision. -/
theorem counted_follow :
    (g.follow run callee args).counted m =
      (g.catalog.decision m.visible callee args).carryOut run callee args m := by
  rw [Catalog.decision_eq_route]
  cases hroute : g.catalog.route callee with
  | gated symbol r receiver body =>
    obtain rfl := Catalog.symbol_of_gated hroute
    unfold Route.decision
    by_cases hmet : r.MetBy m.visible
    · simp only [if_pos hmet]
      exact counted_congr (follow_of_met hroute hmet)
    · simp only [if_neg hmet]
      exact counted_refuse (follow_of_unmet hroute hmet)
  | notCallable | denied =>
    refine counted_refuse (w := m.world) ?_
    unfold follow
    rw [hroute]
    rfl
  | free | primitive =>
    unfold Activity.counted follow
    rw [hroute]
    rfl

/-- **The checkpoint carries out its decision**, on every machine. -/
theorem checkedCall_eq_carryOut :
    g.checkedCall run callee args m =
      (g.decision callee args m).carryOut run callee args (m.afterCheck g.budget) := by
  unfold decision
  cases live : m.world.isExhausted g.budget with
  | true =>
    rw [if_pos rfl, checkedCall]
    simp only [live, if_true]
    rfl
  | false =>
    have checked := Machine.afterCheck_of_live live
    rw [if_neg Bool.false_ne_true, checked]
    cases hc : callee.isCallable with
    | false =>
      rw [Bool.false_and, if_neg Bool.false_ne_true, Catalog.decision_of_not_callable hc]
      exact checkedCall_of_live_not_callable live hc
    | true =>
      rw [Bool.true_and]
      by_cases room : m.thread.depth < maxDepth
      · have within : ¬ maxDepth ≤ m.thread.depth := Nat.not_le_of_lt room
        rw [decide_eq_false within, if_neg Bool.false_ne_true, checkedCall_of_live live hc room]
        exact g.counted_follow run callee args m
      · have beyond : maxDepth ≤ m.thread.depth := Nat.le_of_not_lt room
        rw [decide_eq_true beyond, if_pos rfl, checkedCall]
        simp only [live, hc, checked, Bool.false_eq_true, if_false, if_true]
        refine counted_refuse ?_
        unfold followWithin
        rw [if_pos (show maxDepth < m.enter.thread.depth from Nat.lt_succ_of_le beyond)]
        rfl

/-- **What becomes of a question for a covering token**: the budget is exhausted; or the nearest token
for the capability covers the resource; or the question is refused, and that is logged. -/
theorem coveringToken_cases (capability : Capability) (resource operation : String) :
    let answer := g.coveringToken capability resource operation m
    let nearest := m.visible.bind fun l => l.token? capability true
    (m.world.isExhausted g.budget = true ∧
      answer = (.error (.exhausted .timeout), m.afterCheck g.budget)) ∨
    (m.world.isExhausted g.budget = false ∧
      ∃ token, nearest = some token ∧ token.covers (some resource) = true ∧
        answer = (.ok token, m)) ∨
    (m.world.isExhausted g.budget = false ∧
      (∀ token, nearest = some token → token.covers (some resource) = false) ∧
      answer = (.error (.resourceDenied capability resource),
        m.deny capability (some resource) operation)) := by
  intro answer nearest
  cases live : m.world.isExhausted g.budget with
  | true =>
    refine .inl ⟨rfl, ?_⟩
    simp [answer, coveringToken, live]
  | false =>
    have checked := Machine.afterCheck_of_live live
    refine .inr ?_
    cases found : nearest with
    | none =>
      refine .inr ⟨rfl, fun token none => (Option.some_ne_none _ none.symm).elim, ?_⟩
      simp [answer, coveringToken, live, checked, show m.visible.bind _ = none from found]
    | some token =>
      have held : (m.visible.bind fun l => l.token? capability true) = some token := found
      cases covers : token.covers (some resource) with
      | true =>
        refine .inl ⟨rfl, token, rfl, covers, ?_⟩
        simp [answer, coveringToken, live, checked, held, covers]
      | false =>
        refine .inr ⟨rfl, fun t same => ?_, ?_⟩
        · obtain rfl := Option.some.inj same
          exact covers
        · simp [answer, coveringToken, live, checked, held, covers]

end Gate

end CapabilityGate
