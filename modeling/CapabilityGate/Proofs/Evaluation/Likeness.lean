import CapabilityGate.Proofs.Admission.Checkpoint
import CapabilityGate.Proofs.Evaluation.Lockstep
import CapabilityGate.Proofs.Evaluation.Twins

/-!
# Worlds that no evaluation can tell apart

Evaluations look at shared contexts only through lineages, and at the log not at all. A `Likeness` is
a way in which the contexts and the logs of two worlds may differ so that lineages of known contexts
are the same, and stay the same through all that an evaluation does to them. Worlds that match in a
likeness cannot be told apart: scripts, calls and launches go the same way in both, in lockstep
(`Script.evaluate_inStep`, `callAt_inStep`, `launchAt_inStep`), their workers in the background and in
processes included.
-/
namespace CapabilityGate

/-! ## What an evaluation may have to do with -/

/-- The contexts that an evaluation may activate, and the runs that it may start. -/
structure Purview where
  known : ContextId → Prop
  admits : ContextId → Config → Prop
  known_of_admits : ∀ {context config}, admits context config → known context

/-- **`s.KeepsTo p`** — the script activates known contexts only, and starts admitted runs only, of
units that do the same. -/
def Script.KeepsTo (p : Purview) : Script → Prop
  | finish _ => True
  | panic _ => True
  | call _ _ next => ∀ answer, (next answer).KeepsTo p
  | require _ _ _ next => ∀ answer, (next answer).KeepsTo p
  | find _ next => ∀ answer, (∀ id, answer = some id → p.known id) → (next answer).KeepsTo p
  | within context body next =>
    p.known context ∧ body.KeepsTo p ∧ ∀ answer, (next answer).KeepsTo p
  | current next => ∀ answer, (next answer).KeepsTo p
  | revoke _ next => next.KeepsTo p
  | cancel next => next.KeepsTo p
  | report _ next => next.KeepsTo p
  | sleep _ next => next.KeepsTo p
  | launch context config unit next =>
    p.admits context config ∧ unit.KeepsTo p ∧ ∀ outcome, (next outcome).KeepsTo p
  | raise _ next => next.KeepsTo p
  | exit _ => True
  | allocate _ next => next.KeepsTo p

/-- Every body that a call can enter keeps to the purview. -/
def Catalog.KeepsTo (p : Purview) (c : Catalog Body) : Prop :=
  ∀ callee body, (c.route callee).body? = some body →
    ∀ receiver args, (body receiver args).KeepsTo p

/-- What is active, if anything, is known. -/
def Purview.Knows (p : Purview) (r : Register) : Prop := ∀ a, r = some a → p.known a.context

/-- Only the body of the route is entered. -/
theorem Gate.body?_of_enter {g : Gate} {callee receiver : Value} {args : List Value} {m : Machine}
    {body : Body} (enter : g.decision callee args m = .enter receiver body) :
    (g.catalog.route callee).body? = some body := by
  unfold decision at enter
  split at enter
  · cases enter
  · split at enter
    · cases enter
    · rw [Catalog.decision_eq_route] at enter
      cases hroute : g.catalog.route callee with
      | gated symbol r receiver' body' =>
        rw [hroute] at enter
        unfold Route.decision at enter
        dsimp only at enter
        split at enter
        · cases enter
          rfl
        · cases enter
      | free receiver' body' =>
        rw [hroute] at enter
        cases enter
        rfl
      | notCallable | primitive | denied =>
        rw [hroute] at enter
        cases enter

/-! ## Likenesses -/

/-- A way in which contexts and logs may differ, such that known contexts have the same lineages and
whatever an evaluation within the purview does keeps it so. -/
structure Likeness (p : Purview) where
  stores : Store → Store → Prop
  logs : Log → Log → Prop
  lineageOf : ∀ {s s' id}, stores s s' → p.known id → s.lineageOf id = s'.lineageOf id
  hold : ∀ {s s' id}, stores s s' → p.known id → stores (s.hold id) (s'.hold id)
  release : ∀ {s s' id}, stores s s' → p.known id → stores (s.release id) (s'.release id)
  run : ∀ {w v : World} {context config}, stores w.store v.store → p.admits context config →
    runContext w context config = runContext v context config ∧
      p.known (runContext v context config) ∧
      stores (heldForRun w context config).store (heldForRun v context config).store
  append : ∀ {l l'} (r : Record), logs l l' → logs (l.append r) (l'.append r)

namespace Likeness

variable {p : Purview}

theorem logs_append {l l' : Log} (r : Record) (same : l = l') : l.append r = l'.append r :=
  congrArg (Log.append · r) same

/-- The likeness of two processes, whose logs are their own and the same. -/
def inProcess (L : Likeness p) : Likeness p :=
  { L with logs := Eq, append := @logs_append }

/-- **`L.Matches w v`** — the two worlds are like each other in their contexts and their logs, and are
the same in all else. -/
structure Matches (L : Likeness p) (w v : World) : Prop where
  same : ∃ store log, v = { w with store, log }
  stores : L.stores w.store v.store
  logs : L.logs w.log v.log
  named : ∀ name id, w.context? name = some id → p.known id

variable {L : Likeness p} {w v : World}

theorem extend {l l' : Log} (rs : List Record) (h : L.logs l l') :
    L.logs (l.extend rs) (l'.extend rs) := by
  unfold Log.extend
  induction rs generalizing l l' with
  | nil => exact h
  | cons r rs ih => exact ih (L.append r h)

namespace Matches

theorem clock (h : L.Matches w v) : w.clock = v.clock := by
  obtain ⟨store, log, rfl⟩ := h.same
  rfl

theorem isExhausted (h : L.Matches w v) (budget : Option BudgetId) :
    w.isExhausted budget = v.isExhausted budget := by
  obtain ⟨store, log, rfl⟩ := h.same
  rfl

/-- A change that has nothing to do with contexts and logs. -/
theorem change {f : World → World} (h : L.Matches w v)
    (blind : ∀ (w : World) store log, f { w with store, log } = { f w with store, log })
    (names : ∀ w, (f w).names = w.names) : L.Matches (f w) (f v) := by
  have own := blind w w.store w.log
  have stores : (f w).store = w.store := (congrArg World.store own).trans rfl
  have logs : (f w).log = w.log := (congrArg World.log own).trans rfl
  obtain ⟨⟨store, log, rfl⟩, hstores, hlogs, hnamed⟩ := h
  have other := blind w store log
  refine ⟨⟨store, log, other⟩, ?_, ?_, fun name id found => hnamed name id ?_⟩
  · rw [stores, other]
    exact hstores
  · rw [logs, other]
    exact hlogs
  · unfold World.context? at found ⊢
    rw [← names w]
    exact found

/-- A change of contexts and logs and of nothing else. -/
theorem replace {w' v' : World} (h : L.Matches w v)
    (hw : ∃ store log, w' = { w with store, log }) (hv : ∃ store log, v' = { v with store, log })
    (stores : L.stores w'.store v'.store) (logs : L.logs w'.log v'.log) : L.Matches w' v' := by
  obtain ⟨store, log, rfl⟩ := hw
  obtain ⟨store', log', rfl⟩ := hv
  refine ⟨⟨store', log', ?_⟩, stores, logs, h.named⟩
  obtain ⟨_, _, rfl⟩ := h.same
  rfl

theorem reach (h : L.Matches w v) (time : Time) : L.Matches (w.reach time) (v.reach time) :=
  h.change (f := (World.reach · time)) (fun _ _ _ => rfl) fun _ => rfl

theorem revoke (h : L.Matches w v) (r : Revocation) : L.Matches (w.revoke r) (v.revoke r) :=
  h.change (f := (World.revoke · r)) (fun _ _ _ => rfl) fun _ => rfl

theorem changeBudget (h : L.Matches w v) (id : BudgetId) (change : Budget → Budget) :
    L.Matches (w.changeBudget id change) (v.changeBudget id change) := by
  refine h.change (f := (World.changeBudget · id change)) (fun w store log => ?_) fun w => ?_
  · unfold World.changeBudget
    cases w.budgets[id]? <;> simp
  · obtain ⟨budgets, eq⟩ := w.changeBudget_eq id change
    rw [eq]

theorem afterCheck (h : L.Matches w v) (budget : Option BudgetId) :
    L.Matches (w.afterCheck budget) (v.afterCheck budget) := by
  cases budget with
  | none => exact h
  | some id =>
    show L.Matches (w.changeBudget id (·.checked w.clock)) (v.changeBudget id (·.checked v.clock))
    rw [← h.clock]
    exact h.changeBudget id _

theorem cancelHost (h : L.Matches w v) : L.Matches w.cancelHost v.cancelHost := by
  have same : w.hostBudget = v.hostBudget := by
    obtain ⟨store, log, rfl⟩ := h.same
    rfl
  unfold World.cancelHost
  rw [← same]
  cases w.hostBudget with
  | none => exact h
  | some id => exact h.changeBudget id Budget.cancel

theorem logged (h : L.Matches w v) (rs : List Record) :
    L.Matches { w with log := w.log.extend rs } { v with log := v.log.extend rs } :=
  h.replace ⟨w.store, _, rfl⟩ ⟨v.store, _, rfl⟩ h.stores (extend rs h.logs)

theorem hold (h : L.Matches w v) {id : ContextId} (known : p.known id) :
    L.Matches (w.hold id) (v.hold id) :=
  h.replace ⟨_, w.log, rfl⟩ ⟨_, v.log, rfl⟩ (L.hold h.stores known) h.logs

theorem release (h : L.Matches w v) {id : ContextId} (known : p.known id) :
    L.Matches (w.release id) (v.release id) :=
  h.replace ⟨_, w.log, rfl⟩ ⟨_, v.log, rfl⟩ (L.release h.stores known) h.logs

theorem activate (h : L.Matches w v) {id : ContextId} (known : p.known id) (t : Thread)
    (revocation : Option Revocation) :
    L.Matches (Machine.activate ⟨w, t⟩ id revocation).world
      (Machine.activate ⟨v, t⟩ id revocation).world :=
  (h.hold known).change (f := fun w => { w with activations := w.activations + 1 })
    (fun _ _ _ => rfl) fun _ => rfl

/-- A thread with a known register sees the same context in both worlds. -/
theorem visible (h : L.Matches w v) {t : Thread} (known : p.Knows t.register) :
    Machine.visible ⟨w, t⟩ = Machine.visible ⟨v, t⟩ := by
  have revoked : w.isRevoked = v.isRevoked := by
    obtain ⟨store, log, rfl⟩ := h.same
    rfl
  show (t.register.visible w.isRevoked).map _ = (t.register.visible v.isRevoked).map _
  rw [revoked]
  cases active : t.register with
  | none => rfl
  | some a =>
    unfold Register.visible
    dsimp only
    split
    · rfl
    · exact congrArg some (L.lineageOf h.stores (known a active))

theorem noteEntry (h : L.Matches w v) {t : Thread} (known : p.Knows t.register) (callee : Value)
    (registered : Bool) :
    L.Matches (Machine.noteEntry ⟨w, t⟩ callee registered).world
      (Machine.noteEntry ⟨v, t⟩ callee registered).world := by
  unfold Machine.noteEntry
  rw [h.visible known]
  exact h.change (f := fun w => { w with entries := _ :: w.entries }) (fun _ _ _ => rfl) fun _ => rfl

end Matches

end Likeness

/-! ## The gate -/

section Evaluation

variable {p : Purview} {L : Likeness p}

namespace Gate

variable {g : Gate} {w v : World} {t : Thread}

theorem decision_eq_of_matches (h : L.Matches w v) (known : p.Knows t.register) (callee : Value)
    (args : List Value) : g.decision callee args ⟨w, t⟩ = g.decision callee args ⟨v, t⟩ := by
  unfold decision
  rw [h.visible known, show (Machine.mk w t).world = w from rfl, h.isExhausted g.budget]

/-- A call is decided in the same way, and what is decided is carried out in step. -/
theorem checkedCall_inStep (hg : g.catalog.KeepsTo p) {run : Script → Activity Ending}
    (hrun : ∀ s : Script, s.KeepsTo p → (run s).InStep L.Matches p.Knows) (callee : Value)
    (args : List Value) : (g.checkedCall run callee args).InStep L.Matches p.Knows := by
  intro w v t known h
  have checked : L.Matches (w.afterCheck g.budget) (v.afterCheck g.budget) := h.afterCheck g.budget
  rw [g.checkedCall_eq_carryOut, g.checkedCall_eq_carryOut,
    ← decision_eq_of_matches h known callee args]
  cases decided : g.decision callee args ⟨w, t⟩ with
  | refuse fault => exact .ended checked ⟨rfl, ⟨rfl, rfl⟩, .none⟩
  | lacking missing held resource =>
    refine .ended ?_ ⟨rfl, ⟨rfl, rfl⟩, .none⟩
    rw [show (Machine.afterCheck ⟨w, t⟩ g.budget).world.clock = (v.afterCheck g.budget).clock from
      checked.clock]
    exact checked.logged _
  | enter receiver body =>
    have keeps := hg callee body (body?_of_enter decided) receiver args
    have entered : Activity.InStep L.Matches p.Knows fun m =>
        run (body receiver args) (m.noteEntry callee true) :=
      fun _ _ t known h => hrun _ keeps _ _ t known (h.noteEntry known callee true)
    exact entered.counted _ _ t known checked
  | primitive method receiver =>
    exact .ended (checked.noteEntry (t := { t with depth := t.depth + 1 }) known callee false)
      ⟨rfl, ⟨rfl, rfl⟩, .none⟩

/-- A question for a token gets the same answer. -/
theorem coveringToken_inStep (h : L.Matches w v) (known : p.Knows t.register)
    (capability : Capability) (resource operation : String) :
    ∃ answer w' v', L.Matches w' v' ∧
      g.coveringToken capability resource operation ⟨w, t⟩ = (answer, ⟨w', t⟩) ∧
      g.coveringToken capability resource operation ⟨v, t⟩ = (answer, ⟨v', t⟩) := by
  have checked := h.afterCheck g.budget
  have seen := checked.visible known
  have denied : L.Matches
      (Machine.deny ⟨w.afterCheck g.budget, t⟩ capability (some resource) operation).world
      (Machine.deny ⟨v.afterCheck g.budget, t⟩ capability (some resource) operation).world := by
    show L.Matches { w.afterCheck g.budget with log := _ } { v.afterCheck g.budget with log := _ }
    rw [checked.clock]
    exact checked.logged [_]
  unfold coveringToken Machine.afterCheck Machine.change
  dsimp only
  rw [h.isExhausted g.budget, seen]
  split
  · exact ⟨_, _, _, checked, rfl, rfl⟩
  · split
    · split
      · exact ⟨_, _, _, checked, rfl, rfl⟩
      · exact ⟨_, _, _, denied, rfl, rfl⟩
    · exact ⟨_, _, _, denied, rfl, rfl⟩

end Gate

/-- Within the activation of a known context the register is known. -/
theorem Activity.InStep.activated_known {α : Type} {x : Activity α} {context : ContextId}
    (hx : x.InStep L.Matches p.Knows) (known : p.known context) (revocation : Option Revocation) :
    (x.activated context revocation).InStep L.Matches fun _ => True :=
  hx.activated context revocation (fun r a active => by cases active; exact known)
    (fun w v t h => h.activate known t revocation) fun w v h => h.release known

/-! ## Scripts and calls -/

/-- Launches of admitted runs through gates with this catalog go the same way in matching worlds,
whoever starts them. -/
def Launches.InStep (L : Likeness p) (c : Catalog Body) (launches : Launches) : Prop :=
  ∀ (g : Gate) context config unit, g.catalog = c → p.admits context config → unit.KeepsTo p →
    (launches g context config unit).InStep L.Matches fun _ => True

variable {c : Catalog Body} {calls : Calls} {launches : Launches}

theorem Script.evaluate_inStep {g : Gate} (hg : g.catalog = c)
    (hcalls : ∀ callee args, (calls g callee args).InStep L.Matches p.Knows)
    (hlaunches : launches.InStep L c) (s : Script) (hs : s.KeepsTo p) :
    (s.evaluate calls launches g).InStep L.Matches p.Knows := by
  -- On the tree of the script, one case for each request.
  induction s with
  | finish result => exact Activity.inStep_pure _
  | panic message => exact Activity.inStep_pure _
  | call callee args next ih => exact (hcalls callee args).andThen fun r => ih r (hs r)
  | require capability resource operation next ih =>
    intro w v t known h
    obtain ⟨answer, w', v', after, left, right⟩ :=
      Gate.coveringToken_inStep (g := g) h known capability resource operation
    unfold evaluate
    rw [left, right]
    exact ih answer (hs answer) w' v' t known after
  | find name next ih =>
    intro w v t known h
    have same : w.context? name = v.context? name := by
      obtain ⟨store, log, rfl⟩ := h.same
      rfl
    have keeps := hs (v.context? name) fun id found => h.named name id (same.trans found)
    unfold evaluate
    dsimp only
    rw [same]
    exact ih _ keeps w v t known h
  | within context body next ihbody ih =>
    obtain ⟨hcontext, hbody, hnext⟩ := hs
    have activated := (ihbody hbody).activated_known hcontext none
    exact activated.onKnown.andThen fun r => ih r (hnext r)
  | current next ih =>
    intro w v t known h
    unfold evaluate
    rw [h.visible known]
    exact ih _ (hs _) w v t known h
  | revoke revocation next ih => exact fun w v t known h => ih hs _ _ t known (h.revoke revocation)
  | cancel next ih => exact fun w v t known h => ih hs _ _ t known h.cancelHost
  | report result next ih =>
    intro w v t known h
    refine ih hs _ _ t known ?_
    exact h.change (f := (World.report · result)) (fun _ _ _ => rfl) fun _ => rfl
  | sleep time next ih =>
    intro w v t known h
    unfold evaluate
    dsimp only
    rw [h.clock]
    exact Course.InStep.later h h.clock fun w v h => ih hs w v t known h
  | launch context config unit next _ ih =>
    obtain ⟨admitted, hunit, hnext⟩ := hs
    exact (hlaunches g context config unit hg admitted hunit).onKnown.bind fun o => ih o (hnext o)
  | raise signal next ih =>
    intro w v t known h
    have same : w.spent = v.spent := by
      obtain ⟨store, log, rfl⟩ := h.same
      rfl
    unfold evaluate
    dsimp only
    rw [same]
    cases Signal.raise v.spent signal with
    | ok spent =>
      refine ih hs _ _ t known ?_
      exact h.change (f := fun w => { w with spent }) (fun _ _ _ => rfl) fun _ => rfl
    | error death => exact .died h
  | exit status => exact fun w v t known h => .died h
  | allocate bytes next ih =>
    intro w v t known h
    have same : w.affords bytes = v.affords bytes := by
      obtain ⟨store, log, rfl⟩ := h.same
      rfl
    unfold evaluate
    dsimp only
    rw [same]
    split
    · exact ih hs w v t known h
    · exact .died h

theorem callAt_inStep {g : Gate} (hg : g.catalog.KeepsTo p) (hlaunches : launches.InStep L g.catalog)
    (room : Nat) (callee : Value) (args : List Value) :
    (callAt launches room g callee args).InStep L.Matches p.Knows := by
  -- On the number of calls that may still be nested in this one.
  induction room generalizing callee args with
  | zero => exact Gate.checkedCall_inStep hg (fun _ _ => Activity.inStep_refuse _) callee args
  | succ room ih =>
    exact Gate.checkedCall_inStep hg (fun s hs => s.evaluate_inStep rfl ih hlaunches hs) callee args

/-! ## Runs -/

namespace Likeness.Matches

variable {w v : World} {context : ContextId} {config : Config}

theorem heldForRun (h : L.Matches w v) (admitted : p.admits context config) :
    L.Matches (heldForRun w context config) (heldForRun v context config) :=
  h.replace ⟨_, w.log, rfl⟩ ⟨_, v.log, rfl⟩ (L.run h.stores admitted).2.2 h.logs

theorem addBudget (h : L.Matches w v) (deadline : Time) :
    L.Matches (w.addBudget deadline) (v.addBudget deadline) :=
  h.change (f := (World.addBudget · deadline)) (fun _ _ _ => rfl) fun _ => rfl

theorem changePool (h : L.Matches w v) (change : Pool → Pool) :
    L.Matches { w with pool := change w.pool } { v with pool := change v.pool } :=
  h.change (f := fun w => { w with pool := change w.pool }) (fun _ _ _ => rfl) fun _ => rfl

/-- Both worlds start the same run on a thread. -/
theorem next_eq (h : L.Matches w v) (admitted : p.admits context config) :
    ThreadRun.next w context config = ThreadRun.next v context config := by
  have effective := (L.run h.stores admitted).1
  obtain ⟨store, log, rfl⟩ := h.same
  unfold ThreadRun.next
  rw [effective]

theorem opened (run : ThreadRun) (h : L.Matches w v) (admitted : p.admits run.context run.config) :
    L.Matches (run.opened w) (run.opened v) :=
  ((h.heldForRun admitted).addBudget run.deadline).changePool Pool.start

variable {run : ThreadRun}

theorem closed (h : L.Matches w v) (effective : p.known run.effective)
    (context : p.known run.context) : L.Matches (run.closed w) (run.closed v) :=
  ((h.release effective).release context).changePool fun pool => pool.finish run.number

theorem abandoned (h : L.Matches w v) : L.Matches (run.abandoned w) (run.abandoned v) :=
  ((h.revoke run.switch).changeBudget run.budget Budget.cancel).changePool fun pool =>
    pool.abandon run.number

theorem returned (h : L.Matches w v) (effective : p.known run.effective)
    (context : p.known run.context) : L.Matches (run.returned w) (run.returned v) :=
  ((h.release effective).release context).changePool fun pool => pool.workerReturns run.number

/-- Two processes begin with the same log and the same journal. -/
theorem fork (h : L.Matches w v) (memory : ByteSize) :
    L.inProcess.Matches (w.fork memory) (v.fork memory) := by
  obtain ⟨⟨store, log, rfl⟩, hstores, -, hnamed⟩ := h
  exact ⟨⟨store, .empty, rfl⟩, hstores, rfl, hnamed⟩

end Likeness.Matches

/-- Two workers in step come to the same end, with the same journal. -/
theorem ProcessEnd.ofCourse_eq {x y : Course (Return Ending)} {t : Thread} (deadline : Time)
    (h : x.InStep L.inProcess.Matches (Return.InStep L.inProcess.Matches t) y) :
    ofCourse deadline x = ofCourse deadline y := by
  have followed := h.goOn (fun due => deadline ≤ due) fun _ _ time h => h.reach time
  unfold ofCourse
  generalize x.goOn (fun due _ => deadline ≤ due) = x' at followed ⊢
  generalize y.goOn (fun due _ => deadline ≤ due) = y' at followed ⊢
  cases followed with
  | ended hwv same =>
    have logs := hwv.logs
    obtain ⟨store, log, rfl⟩ := hwv.same
    obtain rfl := show _ = log from logs
    simp only [same.result]
    rfl
  | died hwv =>
    obtain ⟨store, log, rfl⟩ := hwv.same
    rfl
  | asleep hwv =>
    obtain ⟨store, log, rfl⟩ := hwv.same
    rfl

section Runs

variable {evaluate : Gate → Script → Activity Ending} {g : Gate} {context : ContextId}
  {config : Config} {unit : Script}

theorem runOnThread_inStep (admitted : p.admits context config)
    (hunit : ∀ budget, (evaluate ⟨g.catalog, budget⟩ unit).InStep L.Matches p.Knows) :
    (runOnThread evaluate g context config unit).InStep L.Matches fun _ => True := by
  intro w v t _ h
  have known := (L.run h.stores admitted).2.1
  unfold runOnThread
  dsimp only
  rw [h.next_eq admitted]
  generalize hrun : ThreadRun.next v context config = run
  have effective : p.known run.effective := hrun ▸ known
  have caller : p.known run.context := hrun ▸ p.known_of_admits admitted
  have opened := h.opened run (hrun ▸ admitted)
  have worker := (hunit (some run.budget)).activated_known effective (some run.switch) _ _ .initial
    trivial opened
  -- The caller gets the worker's result in time, or gives it up and leaves it in the background.
  refine worker.race (fun x y w v same h => ?_) fun due next next' w v rest h => ?_
  · rw [h.clock, same.result]
    exact .ended (h.closed effective caller) ⟨rfl, ⟨rfl, rfl⟩, same.late⟩
  · refine .ended h.abandoned ⟨rfl, ⟨rfl, rfl⟩, .some ⟨rfl, fun w v h => ?_⟩⟩
    refine (rest w v h).bind fun x y w v same h => ?_
    exact Late.courseOf_inStep same.late (h.returned effective caller)

theorem runInProcess_inStep (admitted : p.admits context config)
    (hunit : ∀ budget,
      (evaluate ⟨g.catalog, budget⟩ unit).InStep L.inProcess.Matches p.Knows) :
    (runInProcess evaluate g context config unit).InStep L.Matches fun _ => True := by
  intro w v t _ h
  obtain ⟨effective, known, -⟩ := L.run h.stores admitted
  have held := h.heldForRun admitted
  have budgets : w.budgets.length = v.budgets.length := by
    obtain ⟨store, log, rfl⟩ := h.same
    rfl
  have child := (held.fork config.memory).addBudget (v.clock + config.timeout.nanos)
  have worker := (hunit (some v.budgets.length)).activated_known known none _ _ t trivial child
  have same := ProcessEnd.ofCourse_eq (v.clock + config.timeout.nanos) worker
  unfold runInProcess
  dsimp only
  rw [h.clock, budgets, effective, same]
  refine Course.InStep.later held held.clock fun w v h => .ended ?_ ⟨rfl, ⟨rfl, rfl⟩, .none⟩
  exact ((((h.release known).release (p.known_of_admits admitted)).logged _).change
    (f := fun w => { w with entries := _ ++ w.entries }) (fun _ _ _ => rfl) fun _ => rfl)

end Runs

/-- **Launches cannot tell matching worlds apart**, at every level of nesting. -/
theorem launchAt_inStep {c : Catalog Body} (hc : c.KeepsTo p) (fuel : Nat) (L : Likeness p) :
    (launchAt fuel).InStep L c := by
  -- On the number of runs that may be nested; a process compares its worlds by a likeness of its own.
  induction fuel generalizing L with
  | zero => exact fun g context config unit _ _ _ => Activity.inStep_pure _
  | succ fuel ih =>
    intro g context config unit hg admitted hunit
    subst hg
    have evaluated : ∀ (L : Likeness p) budget,
        (unit.evaluate (callAt (launchAt fuel) maxDepth) (launchAt fuel)
          ⟨g.catalog, budget⟩).InStep L.Matches p.Knows := by
      intro L budget
      have calls := callAt_inStep (g := ⟨g.catalog, budget⟩) hc (ih L) maxDepth
      exact unit.evaluate_inStep rfl calls (ih L) hunit
    show Activity.InStep L.Matches _ (run _ g context config unit)
    unfold run
    split
    · exact Activity.inStep_pure _
    · split
      · exact runOnThread_inStep admitted (evaluated L)
      · exact runInProcess_inStep admitted (evaluated L.inProcess)

end Evaluation

end CapabilityGate
