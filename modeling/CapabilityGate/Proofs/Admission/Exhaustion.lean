import CapabilityGate.Proofs.Evaluation.Progress

/-!
# An exhausted budget stops everything

A budget is exhausted once it has been cancelled, by its owner or by the first check at its
deadline. Nothing in the process takes that back: `World.Onward` lists what anybody can do to
budgets, and `World.Onward.spent` goes through it. From then on a gate with that budget answers
every request with the same fault and does nothing else.

A body is handed the gate that its call went through, so the budget goes down with every nested
call. `Progress.Carries` says so of a thread in the middle of an evaluation, of its script and of
all that waits in its frames; turns keep it, and a thread that carries an exhausted budget is
`Progress.Stopped`, wherever it stands at that moment.
-/
namespace CapabilityGate

/-! ## Budgets that are exhausted for good -/

namespace World

/-- **`w.Spent id`** — the budget is there, and it has been cancelled. -/
def Spent (id : BudgetId) (w : World) : Prop := ∃ b, w.budgets[id]? = some b ∧ b.cancelled = true

/-- **`World.Onward w v`** — what anybody can do to a world: anything at all that leaves the budgets
alone, the clock included, and to budgets what there is to do to them. -/
inductive Onward : World → World → Prop
  | trans {u v w : World} : Onward u v → Onward v w → Onward u w
  | other {w v : World} : v.budgets = w.budgets → Onward w v
  | check (w : World) (budget : Option BudgetId) : Onward w (w.afterCheck budget)
  | cancel (w : World) (id : BudgetId) : Onward w (w.cancel id)
  | add (w : World) (deadline : Time) : Onward w (w.addBudget deadline)

variable {id : BudgetId} {w v : World}

theorem changeBudget_of_getElem? {b : Budget} (there : w.budgets[id]? = some b)
    (f : Budget → Budget) :
    w.changeBudget id f = { w with budgets := w.budgets.set id (f b) } := by
  unfold changeBudget
  rw [there]

/-- A change that withdraws no cancellation leaves an exhausted budget exhausted. -/
theorem Spent.changeBudget (spent : w.Spent id) (other : BudgetId) {f : Budget → Budget}
    (keeps : ∀ b : Budget, b.cancelled = true → (f b).cancelled = true) :
    (w.changeBudget other f).Spent id := by
  obtain ⟨b, there, cancelled⟩ := spent
  unfold World.changeBudget
  cases found : w.budgets[other]? with
  | none => exact ⟨b, there, cancelled⟩
  | some c =>
    show ∃ b, (w.budgets.set other (f c))[id]? = some b ∧ b.cancelled = true
    by_cases same : other = id
    · subst same
      obtain rfl : c = b := Option.some.inj (found.symm.trans there)
      obtain ⟨within, -⟩ := List.getElem?_eq_some_iff.1 there
      exact ⟨f c, by simp [within], keeps c cancelled⟩
    · exact ⟨b, by rw [List.getElem?_set_ne same, there], cancelled⟩

/-- **Nothing takes exhaustion back.** -/
theorem Onward.spent (onward : Onward w v) (spent : w.Spent id) : v.Spent id := by
  induction onward with
  | trans _ _ first second => exact second (first spent)
  | other same =>
    obtain ⟨b, there, cancelled⟩ := spent
    exact ⟨b, by rw [same, there], cancelled⟩
  | check w budget =>
    cases budget with
    | none => exact spent
    | some other =>
      refine spent.changeBudget other fun b cancelled => ?_
      unfold Budget.checked
      split
      · rfl
      · exact cancelled
  | cancel w other => exact spent.changeBudget other fun _ _ => rfl
  | add w deadline =>
    obtain ⟨b, there, cancelled⟩ := spent
    obtain ⟨within, -⟩ := List.getElem?_eq_some_iff.1 there
    refine ⟨b, ?_, cancelled⟩
    show (w.budgets ++ [_])[id]? = some b
    rw [List.getElem?_append_left within, there]

theorem Onward.cancelHost (w : World) : Onward w w.cancelHost := by
  unfold World.cancelHost
  cases w.hostBudget with
  | none => exact .other rfl
  | some id => exact .cancel w id

/-- What evaluations do to a world is among the things that anybody can do. -/
theorem Evolves.onward {c : Catalog Body} (evolves : Evolves c w v) : Onward w v := by
  induction evolves with
  | refl => exact .other rfl
  | trans _ _ first second => exact first.trans second
  | check w budget => exact .check w budget
  | refuse m args =>
    refine .other ?_
    rw [Machine.denyAll_eq]
    rfl
  | cancel w => exact .cancelHost w
  | opened w run =>
    have held : Onward w (heldForRun w run.context run.config) := .other rfl
    have added : Onward _ ((heldForRun w run.context run.config).addBudget run.deadline) := .add _ _
    exact (held.trans added).trans (.other rfl)
  | abandoned w run =>
    have revoked : Onward w (w.revoke run.switch) := .other rfl
    have cancelled : Onward _ ((w.revoke run.switch).cancel run.budget) := .cancel _ _
    exact (revoked.trans cancelled).trans (.other rfl)
  | reach | enter | primitive | deny | activate | release | revoke | report | spend | closed
  | returned | held | joined => exact .other rfl

/-- Whoever cancels a budget exhausts it. -/
theorem spent_cancel {b : Budget} (there : w.budgets[id]? = some b) : (w.cancel id).Spent id := by
  obtain ⟨within, -⟩ := List.getElem?_eq_some_iff.1 there
  rw [cancel, changeBudget_of_getElem? there]
  exact ⟨b.cancel, by simp [within], rfl⟩

/-- A check that is refused exhausts the budget for good. -/
theorem spent_afterCheck (refused : w.isExhausted (some id) = true) :
    (w.afterCheck (some id)).Spent id := by
  unfold isExhausted at refused
  rw [Option.bind_some] at refused
  cases there : w.budgets[id]? with
  | none =>
    rw [there] at refused
    cases refused
  | some b =>
    rw [there] at refused
    obtain ⟨within, -⟩ := List.getElem?_eq_some_iff.1 there
    show (w.changeBudget id (·.checked w.clock)).Spent id
    rw [changeBudget_of_getElem? there]
    refine ⟨b.checked w.clock, by simp [within], ?_⟩
    rw [Budget.checked, if_pos refused]
    rfl

theorem isExhausted_of_deadline {b : Budget} (there : w.budgets[id]? = some b)
    (passed : b.deadline ≤ w.clock) : w.isExhausted (some id) = true := by
  simp [isExhausted, there, Budget.isExhausted, passed]

namespace Spent

theorem isExhausted (spent : w.Spent id) : w.isExhausted (some id) = true := by
  obtain ⟨b, there, cancelled⟩ := spent
  simp [World.isExhausted, there, Budget.isExhausted, cancelled]

/-- A check of an exhausted budget changes nothing. -/
theorem afterCheck (spent : w.Spent id) : w.afterCheck (some id) = w := by
  obtain ⟨b, there, cancelled⟩ := spent
  obtain ⟨within, rfl⟩ := List.getElem?_eq_some_iff.1 there
  have same : w.budgets[id].checked w.clock = w.budgets[id] := by
    have refused : w.budgets[id].isExhausted w.clock = true := by
      simp [Budget.isExhausted, cancelled]
    rw [Budget.checked, if_pos refused, Budget.cancel, ← cancelled]
  show w.changeBudget id (·.checked w.clock) = w
  rw [changeBudget_of_getElem? there, same, List.set_getElem_self]

end Spent

end World

/-! ## What a gate answers -/

namespace Gate

variable {g : Gate} {id : BudgetId} {m : Machine}

/-- A call through a gate whose budget fails the check is refused, whatever is called. -/
theorem decision_of_exhausted (refused : m.world.isExhausted g.budget = true) (callee : Value)
    (args : List Value) : g.decision callee args m = .refuse (.exhausted .timeout) := by
  unfold decision
  rw [if_pos refused]

theorem checkedCall_of_exhausted (refused : m.world.isExhausted g.budget = true)
    (run : Script → Activity Ending) (callee : Value) (args : List Value) :
    g.checkedCall run callee args m =
      .ended ⟨.returned (.error (.exhausted .timeout)), m.thread, none⟩
        (m.world.afterCheck g.budget) := by
  rw [checkedCall_eq_carryOut, decision_of_exhausted refused]
  rfl

theorem coveringToken_of_exhausted (refused : m.world.isExhausted g.budget = true) (c : Capability)
    (resource operation : String) :
    g.coveringToken c resource operation m =
      (.error (.exhausted .timeout), m.afterCheck g.budget) := by
  unfold coveringToken
  simp [refused]

theorem afterCheck_of_spent (carries : g.budget = some id) (spent : m.world.Spent id) :
    m.afterCheck g.budget = m := by
  show (⟨m.world.afterCheck g.budget, m.thread⟩ : Machine) = m
  rw [carries, spent.afterCheck]

theorem isExhausted_of_spent (carries : g.budget = some id) (spent : m.world.Spent id) :
    m.world.isExhausted g.budget = true := by
  rw [carries]
  exact spent.isExhausted

end Gate

/-! ## Threads that carry a budget -/

/-- The gate that a script goes on with. -/
def Focus.gates : Focus → List Gate
  | script g _ => [g]
  | ending _ => []

/-- The gate that a script waits with. -/
def Frame.gates : Frame → List Gate
  | awaits g _ => [g]
  | call => []
  | activation _ _ => []

/-- **`w.Unnoted v`** — the budgets have been changed at most as anybody can, and the journal and
the log not at all. -/
structure World.Unnoted (w v : World) : Prop where
  onward : World.Onward w v
  entries : v.entries = w.entries
  log : v.log = w.log

/-- Is the script about to ask its gate for something. -/
def Script.asksGate : Script → Bool
  | call _ _ _ | require _ _ _ _ => true
  | _ => false

/-- Only requests to the gate are noted in the journal or in the log. -/
theorem Script.world_of_leads {g : Gate} {frames : List Frame} {m : Machine} {s : Script}
    {q : Progress} {v : World} (idle : s.asksGate = false)
    (leads : (s.turn g frames m).Leads q v) : m.world.Unnoted v := by
  cases s with
  | call | require => cases idle
  | cancel next =>
    cases leads
    obtain ⟨budgets, eq⟩ := m.world.cancelHost_eq
    refine ⟨.cancelHost m.world, ?_, ?_⟩
    · show m.world.cancelHost.entries = _
      rw [eq]
    · show m.world.cancelHost.log = _
      rw [eq]
  | sleep time next =>
    simp only [turn] at leads
    split at leads <;> cases leads <;> exact ⟨.other rfl, rfl, rfl⟩
  | raise signal next =>
    simp only [turn] at leads
    split at leads <;> cases leads
    exact ⟨.other rfl, rfl, rfl⟩
  | allocate bytes next =>
    simp only [turn] at leads
    split at leads <;> cases leads
    exact ⟨.other rfl, rfl, rfl⟩
  | exit status => cases leads
  | finish | panic | find | within | current | revoke | report | launch =>
    cases leads
    exact ⟨.other rfl, rfl, rfl⟩

/-- Nothing is noted at the end of anything. -/
theorem Ending.world_of_leads {e : Ending} {frames : List Frame} {m : Machine} {q : Progress}
    {v : World} (leads : (e.turn m frames).Leads q v) : m.world.Unnoted v := by
  cases frames with
  | nil => cases leads
  | cons f frames =>
    cases f with
    | awaits g next => cases e <;> cases leads <;> exact ⟨.other rfl, rfl, rfl⟩
    | call | activation =>
      cases leads
      exact ⟨.other rfl, rfl, rfl⟩

namespace Progress

/-- **`p.gates`** — all the gates that the thread has been handed. -/
def gates (p : Progress) : List Gate := p.focus.gates ++ p.frames.flatMap Frame.gates

/-- **`p.Carries id`** — every gate that the thread has been handed has this budget. -/
def Carries (id : BudgetId) (p : Progress) : Prop := ∀ g ∈ p.gates, g.budget = some id

/-- **`p.Stopped id w`** — the budget is exhausted, and whatever the thread asks of a gate with that
budget is answered with the fault about it, at once: nothing is entered, looked up or logged, the
register and the depth are as they were, and so is the world. -/
structure Stopped (id : BudgetId) (p : Progress) (w : World) : Prop where
  spent : w.Spent id
  call : ∀ g callee args next, g.budget = some id → p.focus = .script g (.call callee args next) →
    p.turn w = .goes ⟨.script g (next (.error (.exhausted .timeout))), p.frames, p.thread⟩ w
  require : ∀ g c resource operation next, g.budget = some id →
    p.focus = .script g (.require c resource operation next) →
    p.turn w = .goes ⟨.script g (next (.error (.exhausted .timeout))), p.frames, p.thread⟩ w
  /-- With a gate with that budget no turn enters a body or logs a denial, and none begins a call.
  -/
  quiet : (∀ g s, p.focus = .script g s → g.budget = some id) → ∀ q v, (p.turn w).Leads q v →
    v.entries = w.entries ∧ v.log = w.log ∧ q.callsInProgress ≤ p.callsInProgress

variable {id : BudgetId} {around : Surroundings} {p q : Progress} {w v : World}

theorem carries_start {g : Gate} (carries : g.budget = some id) (s : Script) (t : Thread) :
    (start g s t).Carries id := by
  intro h mem
  obtain rfl : h = g := by simpa [gates, start, Focus.gates] using mem
  exact carries

theorem Carries.through (carries : p.Carries id) {h : Gate} (hh : h.budget = some id) :
    (p.through h).Carries id := by
  obtain ⟨focus, frames, t⟩ := p
  cases focus with
  | ending e => exact carries
  | script g s =>
    intro g' mem
    rcases List.mem_cons.1 mem with rfl | waits
    · exact hh
    · exact carries g' (List.mem_cons_of_mem g waits)

/-- **A body is handed the gate of its call**: no turn brings in another gate. -/
theorem gates_of_leads (leads : (p.turn w).Leads q v) : q.gates ⊆ p.gates := by
  obtain ⟨focus, frames, t⟩ := p
  intro h mem
  cases focus with
  | script g s =>
    cases Script.turn_shape leads with
    | goesOn => exact mem
    | ends => exact List.mem_cons_of_mem g mem
    | enters | activates => simpa [gates, Focus.gates, Frame.gates] using mem
  | ending e =>
    cases Ending.turn_shape leads with
    | answers => exact mem
    | panics => exact List.mem_cons_of_mem _ mem
    | leaves | restores => exact mem

/-- What the thread itself does to the budgets is what anybody can do to them. -/
theorem onward_of_leads (leads : (p.turn w).Leads q v) : World.Onward w v := by
  obtain ⟨focus, frames, t⟩ := p
  cases focus with
  | ending e => exact (Ending.world_of_leads leads).onward
  | script g s =>
    change (s.turn g frames ⟨w, t⟩).Leads q v at leads
    cases s with
    | call callee args next =>
      change ((g.decision callee args ⟨w, t⟩).turn g frames callee args next _).Leads q v at leads
      have checked : World.Onward w (w.afterCheck g.budget) := .check w g.budget
      cases decided : g.decision callee args ⟨w, t⟩ with
      | refuse | lacking | enter | primitive =>
        rw [decided] at leads
        cases leads
        exact checked.trans (.other rfl)
    | require c resource operation next =>
      have evolves := (g.coveringToken_evolves c resource operation ⟨w, t⟩).1
      change (Machine.goOn (g.coveringToken c resource operation ⟨w, t⟩).2 g frames _).Leads q v
        at leads
      cases leads
      exact evolves.onward
    | _ => exact (Script.world_of_leads rfl leads).onward

/-- **Whoever has a gate with an exhausted budget is stopped**, wherever the thread stands. -/
theorem stopped_of_spent (spent : w.Spent id) (p : Progress) : p.Stopped id w := by
  obtain ⟨focus, frames, t⟩ := p
  have call : ∀ g callee args next, g.budget = some id →
      focus = .script g (.call callee args next) →
      turn ⟨focus, frames, t⟩ w =
        .goes ⟨.script g (next (.error (.exhausted .timeout))), frames, t⟩ w := by
    rintro g callee args next own rfl
    have refused := Gate.isExhausted_of_spent (m := ⟨w, t⟩) own spent
    show (g.decision callee args ⟨w, t⟩).turn g frames callee args next
      (Machine.afterCheck ⟨w, t⟩ g.budget) = _
    rw [Gate.decision_of_exhausted refused, Gate.afterCheck_of_spent own spent]
    rfl
  have require : ∀ g c resource operation next, g.budget = some id →
      focus = .script g (.require c resource operation next) →
      turn ⟨focus, frames, t⟩ w =
        .goes ⟨.script g (next (.error (.exhausted .timeout))), frames, t⟩ w := by
    rintro g c resource operation next own rfl
    have refused := Gate.isExhausted_of_spent (m := ⟨w, t⟩) own spent
    show Machine.goOn (g.coveringToken c resource operation ⟨w, t⟩).2 g frames
      (next (g.coveringToken c resource operation ⟨w, t⟩).1) = _
    rw [Gate.coveringToken_of_exhausted refused, Gate.afterCheck_of_spent own spent]
    rfl
  refine ⟨spent, call, require, fun carries q v leads => ?_⟩
  cases focus with
  | ending e =>
    have kept := Ending.world_of_leads leads
    refine ⟨kept.entries, kept.log, ?_⟩
    cases Ending.turn_shape leads with
    | answers | panics | restores => exact Nat.le_refl _
    | leaves => exact Nat.le_succ _
  | script g s =>
    have own : g.budget = some id := carries g s rfl
    change (s.turn g frames ⟨w, t⟩).Leads q v at leads
    cases s with
    | call callee args next =>
      have answered : Script.turn g frames ⟨w, t⟩ (.call callee args next) = _ :=
        call g callee args next own rfl
      rw [answered] at leads
      cases leads
      exact ⟨rfl, rfl, Nat.le_refl _⟩
    | require c resource operation next =>
      have answered : Script.turn g frames ⟨w, t⟩ (.require c resource operation next) = _ :=
        require g c resource operation next own rfl
      rw [answered] at leads
      cases leads
      exact ⟨rfl, rfl, Nat.le_refl _⟩
    | _ =>
      have kept := Script.world_of_leads rfl leads
      refine ⟨kept.entries, kept.log, ?_⟩
      cases Script.turn_shape leads with
      | goesOn | ends | activates => exact Nat.le_refl _
      | enters called => cases called

theorem Carries.moves {x y : Progress × World} (carries : x.1.Carries id)
    (available : ∀ h, around.gates h → h.budget = some id) (moves : Moves around x y) :
    y.1.Carries id := by
  cases moves with
  | own leads _ => exact fun g mem => carries g (gates_of_leads leads mem)
  | through at_hand leads _ =>
    exact fun g mem => carries.through (available _ at_hand) g (gates_of_leads leads mem)

theorem Carries.reaches {x y : Progress × World} (carries : x.1.Carries id)
    (available : ∀ h, around.gates h → h.budget = some id) (reaches : Reaches around x y) :
    y.1.Carries id :=
  reaches.keeps (P := fun x => x.1.Carries id)
    (fun _ _ moves carries => carries.moves available moves) carries

/-- While a thread goes on among others, an exhausted budget stays exhausted. -/
theorem spent_of_reaches {x y : Progress × World}
    (others : ∀ w v, around.others w v → World.Onward w v) (reaches : Reaches around x y)
    (spent : x.2.Spent id) : y.2.Spent id := by
  refine reaches.keeps (P := fun x => x.2.Spent id) (fun x y moves spent => ?_) spent
  cases moves with
  | own leads meanwhile =>
    exact (others _ _ meanwhile).spent ((onward_of_leads leads).spent spent)
  | through _ leads meanwhile =>
    exact (others _ _ meanwhile).spent ((onward_of_leads leads).spent spent)

end Progress

/-- **An exhausted budget stops everything.** A budget is exhausted when it is cancelled, and when a
request through a gate with it is made at its deadline or later, which is refused itself. From then
on every call through any gate with that budget is refused with the fault about it, whatever is
called and whatever a body would do, and so is every question for a token; both leave the machine as
it was.

So it is in the middle of any evaluation. Let a thread stand anywhere, within any number of calls
and activations, when the budget is exhausted, while others do what they like to everything but
budgets, and to budgets what can be done to them. Wherever it comes from there, what it asks of a
gate with that budget, be it the one at which it is or another one at hand, is refused on the spot,
and the turn enters nothing, logs nothing and begins no call. If the evaluation began with such a
gate and bodies have no others at hand, these are all the gates that any body of it has been handed,
at any depth. The budget stays exhausted: neither the thread nor anybody else can take that back,
nor any evaluation, in whatever thread or worker. What the evaluator says of a script is what its
thread does turn by turn. -/
theorem exhausted_budget_stops_everything (id : BudgetId) (runs : Nat) :
    (∀ (w : World) b, w.budgets[id]? = some b → (w.cancel id).Spent id) ∧
    (∀ (g : Gate) (m : Machine) b, g.budget = some id → m.world.budgets[id]? = some b →
      b.deadline ≤ m.world.clock →
      let after : Machine := m.afterCheck (some id)
      after.world.Spent id ∧ after.thread = m.thread ∧
      (∀ run callee args, g.checkedCall run callee args m =
        .ended ⟨.returned (.error (.exhausted .timeout)), m.thread, none⟩ after.world) ∧
      ∀ c resource operation,
        g.coveringToken c resource operation m = (.error (.exhausted .timeout), after)) ∧
    (∀ (g : Gate) (m : Machine), g.budget = some id → m.world.Spent id →
      (∀ run callee args, g.checkedCall run callee args m =
        .ended ⟨.returned (.error (.exhausted .timeout)), m.thread, none⟩ m.world) ∧
      ∀ c resource operation,
        g.coveringToken c resource operation m = (.error (.exhausted .timeout), m)) ∧
    (∀ (gates : Gate → Prop) (g : Gate) (s : Script) (t : Thread) (w v u : World) (p q : Progress),
      let around : Surroundings := ⟨gates, World.Onward⟩
      Progress.Reaches around (.start g s t, w) (p, v) → v.Spent id →
      Progress.Reaches around (p, v) (q, u) →
      (q.Stopped id u ∧ ∀ h : Gate, (q.through h).Stopped id u) ∧
      (g.budget = some id → (∀ h, gates h → h.budget = some id) → q.Carries id)) ∧
    (∀ w v, World.Onward w v → w.Spent id → v.Spent id) ∧
    (∀ c w v, World.Evolves c w v → World.Onward w v) ∧
    ∀ (p : Progress) w, p.course runs w = (p.turn w).course runs := by
  refine ⟨fun w b there => World.spent_cancel there, ?_, ?_, ?_, fun w v => World.Onward.spent,
    fun c w v => World.Evolves.onward, Progress.course_turn runs⟩
  · intro g m b carries there passed after
    have refused : m.world.isExhausted g.budget = true := by
      rw [carries]
      exact World.isExhausted_of_deadline there passed
    refine ⟨?_, rfl, fun run callee args => ?_, fun c resource operation => ?_⟩
    · rw [carries] at refused
      exact World.spent_afterCheck refused
    · rw [Gate.checkedCall_of_exhausted refused, carries]
      rfl
    · rw [Gate.coveringToken_of_exhausted refused, carries]
  · intro g m carries spent
    have refused := Gate.isExhausted_of_spent carries spent
    have checked := Gate.afterCheck_of_spent carries spent
    refine ⟨fun run callee args => ?_, fun c resource operation => ?_⟩
    · rw [Gate.checkedCall_of_exhausted refused]
      exact congrArg (fun m : Machine => Course.ended _ m.world) checked
    · rw [Gate.coveringToken_of_exhausted refused, checked]
  · intro gates g s t w v u p q around before spent after
    have still : u.Spent id :=
      Progress.spent_of_reaches (fun _ _ onward => onward) after spent
    refine ⟨⟨Progress.stopped_of_spent still q, fun h => ?_⟩, fun carries available => ?_⟩
    · exact Progress.stopped_of_spent still (q.through h)
    · have first := (Progress.carries_start carries s t).reaches available before
      exact first.reaches available after

end CapabilityGate
