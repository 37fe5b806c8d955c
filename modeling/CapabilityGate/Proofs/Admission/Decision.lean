import CapabilityGate.Proofs.Admission.Listing
import CapabilityGate.Sandbox.Run

/-!
# The decision about a call

The rules of admission as a list, tried in order: what cannot be called; what requires
capabilities; what is of the program; the listed methods of primitive values; what is of a trusted
class. What no rule decides is refused. `Gate.checkedCall_eq_decision` says that, with a live budget
and room for one more call, the checkpoint does exactly what the first rule that applies says, and
nothing else.
-/
namespace CapabilityGate

/-- What becomes of a call. -/
inductive Decision where
  /-- It is refused, and the log is not touched. -/
  | refuse (fault : Fault)
  /-- Capabilities are missing, and each of them is logged. -/
  | lacking (missing held : List Capability) (resource : Option String)
  /-- The registered body is entered. -/
  | enter (receiver : Value) (body : Body)
  /-- The listed method of a primitive value is applied. -/
  | primitive (method : Primitive) (receiver : Value)

namespace Requirement

/-- What is required and not held, in order; all of it when no context is active. -/
def lackedBy (r : Requirement) : Option Lineage → List Capability
  | none => r.capabilities
  | some l => r.capabilities.filter fun c => !l.holds c none true

theorem missing_eq_lackedBy (r : Requirement) (visible : Option Lineage) :
    r.missing visible = r.lackedBy visible := by
  cases visible with
  | none => simp [missing, lackedBy]
  | some l => simp [missing, lackedBy]

instance (r : Requirement) (visible : Option Lineage) : Decidable (r.MetBy visible) :=
  decidable_of_iff (r.missing visible = []) (r.missing_eq_nil_iff visible)

end Requirement

namespace Catalog

/-! ## The rules -/

/-- Only functions and methods can be called. -/
def notCallable (callee : Value) : Option Decision :=
  if callee.isCallable then none
  else some (.refuse (.type s!"{callee.describe} is not callable"))

/-- What has a requirement may be entered exactly by those who meet it. -/
def gated (c : Catalog Body) (visible : Option Lineage) (callee : Value) (args : List Value) :
    Option Decision :=
  (c.listing? callee).bind fun x => x.requirement.map fun r =>
    if r.MetBy visible then .enter x.receiver x.body
    else .lacking (r.lackedBy visible) (heldTypes visible) (r.resource args)

/-- What is of the program may be entered. -/
def ofProgram (c : Catalog Body) (callee : Value) : Option Decision :=
  (c.listing? callee).bind fun x =>
    if x.origin.isProgram then some (.enter x.receiver x.body) else none

/-- The listed methods of primitive values may be used. -/
def vetted (callee : Value) : Option Decision :=
  (primitive? callee).map fun p => .primitive p.1 p.2

/-- What is of a trusted class may be entered. -/
def ofTrusted (c : Catalog Body) (callee : Value) : Option Decision :=
  (c.listing? callee).bind fun x =>
    if x.trusted then some (.enter x.receiver x.body) else none

/-- **`c.decision visible callee args`** — what the first rule says that applies. -/
def decision (c : Catalog Body) (visible : Option Lineage) (callee : Value) (args : List Value) :
    Decision :=
  let rules := [notCallable callee, c.gated visible callee args, c.ofProgram callee, vetted callee,
    c.ofTrusted callee]
  (rules.findSome? id).getD (.refuse (.security callee.symbol (c.originOf callee) c.callSources))

variable {c : Catalog Body} {visible : Option Lineage} {callee : Value} {args : List Value}

theorem isCallable_of_listing {x : Listing Body} (hx : c.listing? callee = some x) :
    callee.isCallable = true := by
  rcases listing?_cases hx with ⟨_, _, rfl, -, -⟩ | ⟨_, _, _, _, _, rfl, -, -, -⟩ <;> rfl

theorem decision_of_listing {x : Listing Body} (hx : c.listing? callee = some x) :
    c.decision visible callee args =
      match x.requirement with
      | some r =>
        if r.MetBy visible then .enter x.receiver x.body
        else .lacking (r.lackedBy visible) (heldTypes visible) (r.resource args)
      | none =>
        if x.origin.isProgram || x.trusted then .enter x.receiver x.body
        else .refuse (.security callee.symbol x.origin.display c.callSources) := by
  have hc := isCallable_of_listing hx
  have hp := primitive?_of_listing hx
  have ho := originOf_of_listing hx
  cases hr : x.requirement with
  | some r => simp [decision, notCallable, gated, hc, hx, hr]
  | none =>
    cases hprogram : x.origin.isProgram <;> cases htrusted : x.trusted <;>
      simp [decision, notCallable, gated, ofProgram, vetted, ofTrusted, hc, hx, hp, ho, hr,
        hprogram, htrusted]

theorem decision_of_unlisted (hc : callee.isCallable = true) (hx : c.listing? callee = none) :
    c.decision visible callee args =
      match primitive? callee with
      | some (p, receiver) => .primitive p receiver
      | none => .refuse (.security callee.symbol (c.originOf callee) c.callSources) := by
  cases hp : primitive? callee <;>
    simp [decision, notCallable, gated, ofProgram, vetted, ofTrusted, hc, hx, hp]

theorem decision_of_not_callable (hc : callee.isCallable = false) :
    c.decision visible callee args = .refuse (.type s!"{callee.describe} is not callable") := by
  simp [decision, notCallable, hc]

end Catalog

/-- What a decision comes to on a machine; `run` evaluates a body that is entered, and while it does
one more call is in progress. -/
def Decision.carryOut (run : Script → Activity Ending) (callee : Value) (args : List Value)
    (m : Machine) : Decision → Course (Return Ending)
  | refuse fault => .ended ⟨.returned (.error fault), m.thread, none⟩ m.world
  | lacking missing held resource =>
    .ended ⟨.returned (.error (.capability callee.symbol missing held)), m.thread, none⟩
      { m.world with
        log := m.world.log.extend
          (denialRecords missing resource callee.symbol m.world.clock) }
  | enter receiver body =>
    Activity.counted (fun m => run (body receiver args) (m.noteEntry callee true)) m
  | primitive method receiver =>
    .ended ⟨.returned ((method.apply receiver args).mapError Misuse.fault), m.thread, none⟩
      (m.enter.noteEntry callee false).world

/-! ## What the checkpoint does -/

/-- A check of a live budget changes nothing. -/
theorem World.afterCheck_of_live {w : World} {budget : Option BudgetId}
    (live : w.isExhausted budget = false) : w.afterCheck budget = w := by
  cases budget with
  | none => rfl
  | some id =>
    unfold isExhausted at live
    simp only [afterCheck, changeBudget, Option.bind_some] at live ⊢
    cases hb : w.budgets[id]? with
    | none => rfl
    | some b =>
      rw [hb] at live
      obtain ⟨hid, rfl⟩ := List.getElem?_eq_some_iff.1 hb
      simp only [Budget.checked, live, Bool.false_eq_true, ↓reduceIte, List.set_getElem_self]

namespace Gate

variable {g : Gate} {run : Script → Activity Ending} {callee : Value} {args : List Value}
  {m : Machine}

theorem checkedCall_of_live (live : m.world.isExhausted g.budget = false)
    (hc : callee.isCallable = true) (room : m.thread.depth < maxDepth) :
    g.checkedCall run callee args m = (g.follow run callee args).counted m := by
  have hdepth : ¬ maxDepth < m.enter.thread.depth := by
    simp only [Machine.enter]
    omega
  have hchecked : m.afterCheck g.budget = m := by
    simp only [Machine.afterCheck, Machine.change, World.afterCheck_of_live live]
  unfold checkedCall
  dsimp only
  rw [hchecked, live, hc]
  simp only [Bool.false_eq_true, ↓reduceIte, Activity.counted, followWithin, if_neg hdepth]

theorem checkedCall_of_live_not_callable (live : m.world.isExhausted g.budget = false)
    (hc : callee.isCallable = false) :
    g.checkedCall run callee args m =
      Activity.refuse (.type s!"{callee.describe} is not callable") m := by
  unfold checkedCall
  simp [live, hc, Machine.afterCheck, Machine.change, World.afterCheck_of_live live]

/-- A gated body is entered by those who meet its requirement. -/
theorem follow_of_met {receiver : Value} {symbol : String} {r : Requirement} {body : Body}
    (hroute : g.catalog.route callee = .gated symbol r receiver body) (hmet : r.MetBy m.visible) :
    g.follow run callee args m = enterBody run body receiver callee args m := by
  unfold follow
  rw [hroute]
  simp [(r.missing_eq_nil_iff m.visible).2 hmet]

/-- What is missing of an unmet requirement is logged, and the fault names it. -/
theorem follow_of_unmet {receiver : Value} {symbol : String} {r : Requirement} {body : Body}
    (hroute : g.catalog.route callee = .gated symbol r receiver body)
    (hmet : ¬ r.MetBy m.visible) :
    g.follow run callee args m =
      .ended
        ⟨.returned (.error (.capability symbol (r.lackedBy m.visible) (heldTypes m.visible))),
          m.thread, none⟩
        { m.world with
          log := m.world.log.extend (denialRecords (r.lackedBy m.visible) (r.resource args) symbol
            m.world.clock) } := by
  have hlacked : r.lackedBy m.visible ≠ [] := by
    rw [← r.missing_eq_lackedBy]
    exact fun h => hmet ((r.missing_eq_nil_iff m.visible).1 h)
  unfold follow
  rw [hroute]
  simp only [r.missing_eq_lackedBy, List.isEmpty_iff, if_neg hlacked, Machine.denyAll_eq]
  rfl

/-- What a call in progress does depends on the machine on which it is counted. -/
theorem counted_congr {x y : Activity Ending} (h : x m.enter = y m.enter) :
    x.counted m = y.counted m := by
  unfold Activity.counted
  rw [h]

/-- A refusal is counted in and out again. -/
theorem counted_refuse {x : Activity Ending} {f : Fault} {w : World}
    (h : x m.enter = .ended ⟨.returned (.error f), m.enter.thread, none⟩ w) :
    x.counted m = .ended ⟨.returned (.error f), m.thread, none⟩ w := by
  unfold Activity.counted
  rw [h]
  rfl

/-- **The checkpoint does what the first rule says that applies**, for every catalog, callee and
list of arguments and whatever context is active, if the budget is live and one more call may be in
progress. -/
theorem checkedCall_eq_decision (g : Gate) (run : Script → Activity Ending) (callee : Value)
    (args : List Value) (m : Machine) (live : m.world.isExhausted g.budget = false)
    (room : m.thread.depth < maxDepth) :
    g.checkedCall run callee args m =
      (g.catalog.decision m.visible callee args).carryOut run callee args m := by
  cases hc : callee.isCallable with
  | false =>
    rw [Catalog.decision_of_not_callable hc]
    exact checkedCall_of_live_not_callable live hc
  | true =>
    rw [checkedCall_of_live live hc room]
    -- What is listed is decided by its requirement, its origin and its class, in this order; a
    -- primitive method can only be meant by a callee that is not listed.
    cases hx : g.catalog.listing? callee with
    | none =>
      rw [Catalog.decision_of_unlisted hc hx]
      have hroute := Catalog.route_of_unlisted hc hx
      cases hp : Catalog.primitive? callee with
      | none =>
        rw [hp] at hroute
        exact counted_refuse (by unfold follow; rw [hroute]; rfl)
      | some p =>
        rw [hp] at hroute
        unfold Activity.counted follow
        rw [hroute]
        rfl
    | some x =>
      rw [Catalog.decision_of_listing hx]
      have hroute := Catalog.route_of_listing hx
      cases hr : x.requirement with
      | some r =>
        rw [hr] at hroute
        by_cases hmet : r.MetBy m.visible
        · simp only [if_pos hmet]
          exact counted_congr (follow_of_met hroute hmet)
        · simp only [if_neg hmet]
          exact counted_refuse (follow_of_unmet hroute hmet)
      | none =>
        rw [hr] at hroute
        cases hopen : x.origin.isProgram || x.trusted with
        | true =>
          rw [hopen] at hroute
          unfold Activity.counted follow
          rw [hroute]
          rfl
        | false =>
          rw [hopen] at hroute
          exact counted_refuse (by unfold follow; rw [hroute]; rfl)

end Gate

/-! ## A gated method of a class that is trusted anyway -/

/-- A trusted class of the program whose one method requires two capabilities. -/
def vaultGate : Gate where
  catalog :=
    { program := "main", functions := []
      classes := [⟨"Vault", .program "main", true,
        [⟨"open", some ⟨[⟨"file.read"⟩, ⟨"net.http"⟩], some 0⟩, fun _ _ => .finish (.ok .unit)⟩]⟩] }
  budget := none

/-- A context that holds one of the two. -/
def readerContext : Context := (Context.empty "reader" none).add (.unrestricted ⟨"file.read"⟩)

/-- A thread on which that context is active. -/
def reader : Machine :=
  ⟨{ World.initial with store := Store.empty.share readerContext }, ⟨some ⟨0, none⟩, 0⟩⟩

theorem visible_reader : reader.visible = some [readerContext] := by
  simp [Machine.visible, reader, Register.visible, Store.lineageOf, Store.find?, Store.share,
    Store.empty, Store.reachable?, readerContext, Context.add, Context.empty]

/-- The requirement counts although class and origin would admit the call. -/
theorem checkedCall_eq_decision_vault :
    reader.world.isExhausted vaultGate.budget = false ∧ reader.thread.depth < maxDepth ∧
      vaultGate.checkedCall (fun s => s.evaluate calls launches vaultGate)
          (.method (.object "Vault" []) "open") [.str "/a"] reader =
        .ended
          ⟨.returned (.error (.capability "Vault.open" [⟨"net.http"⟩] [⟨"file.read"⟩])),
            reader.thread, none⟩
          { reader.world with
            log := reader.world.log.extend [⟨⟨"net.http"⟩, some "/a", "Vault.open", 0⟩] } := by
  refine ⟨rfl, by decide, ?_⟩
  rw [Gate.checkedCall_eq_decision _ _ _ _ _ rfl (by decide), visible_reader]
  rfl

end CapabilityGate
