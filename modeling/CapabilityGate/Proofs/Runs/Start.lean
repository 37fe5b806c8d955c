import CapabilityGate.Proofs.Runs.Process

/-!
# Where the unit of a run begins

A run looks at its unit only from one machine on, `Machine.unitStart`. On a thread that machine has a
register and a depth of its own. In a process its thread is a copy of the caller's, and the context
of the run is activated over whatever the register of the caller holds: so the calls in progress
count on, and a switch that the caller answers to hides the context of the run as well.

`run_starts_iff` says when a unit begins with the context of its run and with all of its depth, and
what a run depends on in the thread of its caller. `run_depends_on_caller` is a unit that can tell
its callers apart.
-/
namespace CapabilityGate

/-! ## The machine of a unit -/

/-- The gate of the unit of a run that starts now. -/
def Gate.forRun (g : Gate) (m : Machine) : Gate := ⟨g.catalog, some m.world.budgets.length⟩

/-- **`m.unitStart context config`** — the machine on which the unit of a run begins. -/
def Machine.unitStart (m : Machine) (context : ContextId) (config : Config) : Machine :=
  let effective := runContext m.world context config
  match config.isolation with
  | .thread =>
    let run := ThreadRun.next m.world context config
    Machine.activate ⟨run.opened m.world, .initial⟩ effective (some run.switch)
  | .process =>
    let copy := (heldForRun m.world context config).fork config.memory
    Machine.activate ⟨copy.addBudget (config.deadline m.world.clock), m.thread⟩ effective none

section Start

variable {g : Gate} {context : ContextId} {config : Config} {unit : Script} {m : Machine}

/-- Only what the unit does from there on makes a difference to a run. -/
theorem run_congr {evaluate evaluate' : Gate → Script → Activity Ending}
    (same : evaluate (g.forRun m) unit (m.unitStart context config) =
      evaluate' (g.forRun m) unit (m.unitStart context config)) :
    run evaluate g context config unit m = run evaluate' g context config unit m := by
  unfold run
  cases config.validate with
  | error e => rfl
  | ok _ =>
    cases isolation : config.isolation with
    | thread =>
      simp only [Machine.unitStart, isolation] at same
      show runOnThread evaluate g context config unit m = runOnThread evaluate' g context config unit m
      unfold runOnThread Activity.activated
      exact congrArg (fun c => ThreadRun.watch _ m.thread (Course.bind c _)) same
    | process =>
      simp only [Machine.unitStart, isolation] at same
      show runInProcess evaluate g context config unit m =
        runInProcess evaluate' g context config unit m
      unfold Gate.forRun Config.deadline at same
      unfold runInProcess Activity.activated
      dsimp only
      rw [same]

/-- The register of a unit holds the context of its run; on a thread it answers to the switch of the
run, in a process to the switch of the caller. -/
theorem register_unitStart :
    (m.unitStart context config).thread.register =
      some ⟨runContext m.world context config,
        match config.isolation with
        | .thread => some (.ofRun m.world.pool.runs.length)
        | .process => m.thread.register.revocation⟩ := by
  unfold Machine.unitStart
  cases config.isolation <;> rfl

theorem depth_unitStart :
    (m.unitStart context config).thread.depth =
      match config.isolation with
      | .thread => 0
      | .process => m.thread.depth := by
  unfold Machine.unitStart
  cases config.isolation <;> rfl

/-- A run holds its two contexts, and the activation holds the one of the unit once more. -/
theorem store_unitStart :
    (m.unitStart context config).world.store =
      (heldForRun m.world context config).store.hold (runContext m.world context config) := by
  unfold Machine.unitStart
  cases config.isolation <;> rfl

/-- A run throws no switch before its unit begins. -/
theorem isRevoked_unitStart :
    (m.unitStart context config).world.isRevoked = m.world.isRevoked := by
  unfold Machine.unitStart
  cases config.isolation <;> rfl

/-- The context of a run is the current one where the switch it answers to has not been thrown. -/
theorem current_unitStart_iff :
    (m.unitStart context config).thread.register.visible (m.unitStart context config).world.isRevoked
        = some (runContext m.world context config) ↔
      match config.isolation with
      | .thread => .ofRun m.world.pool.runs.length ∉ m.world.revoked
      | .process => ∀ r, m.thread.register.revocation = some r → r ∉ m.world.revoked := by
  rw [register_unitStart, isRevoked_unitStart]
  cases config.isolation with
  | thread => simp [Register.visible, World.isRevoked]
  | process =>
    cases m.thread.register.revocation with
    | none => simp [Register.visible]
    | some r => simp [Register.visible, World.isRevoked]

/-- Its unit sees a context unless the switch has been thrown. -/
theorem isSome_visible_unitStart :
    (m.unitStart context config).visible.isSome =
      !Option.any m.world.isRevoked (match config.isolation with
        | .thread => some (.ofRun m.world.pool.runs.length)
        | .process => m.thread.register.revocation) := by
  rw [Machine.visible, Option.isSome_map, register_unitStart, isRevoked_unitStart]
  show (if Option.any m.world.isRevoked _ then none else some _ : Option ContextId).isSome = _
  cases Option.any m.world.isRevoked _ <;> rfl

/-- Callers at the same depth that answer to the same switch give their units the same start. -/
theorem unitStart_congr {w : World} {t t' : Thread}
    (same : config.isolation = .thread ∨
      (t.depth = t'.depth ∧ t.register.revocation = t'.register.revocation)) :
    Machine.unitStart ⟨w, t⟩ context config = Machine.unitStart ⟨w, t'⟩ context config := by
  rcases same with thread | ⟨depth, revocation⟩
  · unfold Machine.unitStart
    rw [thread]
  · unfold Machine.unitStart
    cases config.isolation with
    | thread => rfl
    | process =>
      simp only [Machine.activate, Register.activate, Option.none_or, depth, revocation]

end Start

/-! ## What a run gives back -/

/-- What a thread came to, without the state of the thread itself. -/
def Return.news {α : Type} (r : Return α) : α × Option Late := (r.result, r.late)

namespace Course

variable {α β γ : Type}

theorem map_bind (c : Course α) (f : α → World → Course β) (h : β → γ) :
    (c.bind f).map h = c.bind fun a w => (f a w).map h :=
  bind_assoc c f _

theorem map_goOn (enough : Time → World → Bool) (f : α → β) (c : Course α) :
    (c.map f).goOn enough = (c.goOn enough).map f := by
  induction c with
  | ended a w => rfl
  | died death w => rfl
  | asleep due w next ih =>
    show (asleep due w fun w => (next w).map f).goOn enough = _
    unfold goOn
    split
    · rfl
    · exact ih _

theorem map_later (due : Time) (w : World) (next : World → Course α) (f : α → β) :
    (later due w next).map f = later due w fun w => (next w).map f := by
  unfold later
  split <;> rfl

theorem map_race (deadline : Time) (inTime : α → World → Course β)
    (expired : Time → (World → Course α) → World → Course β) (f : β → γ) (c : Course α) :
    (c.race deadline inTime expired).map f =
      c.race deadline (fun a w => (inTime a w).map f)
        (fun due next w => (expired due next w).map f) := by
  induction c with
  | ended a w => rfl
  | died death w => rfl
  | asleep due w next ih =>
    unfold race
    split
    · show asleep due w _ = asleep due w _
      exact congrArg _ (funext fun w => ih w)
    · rfl

end Course

/-- The end of a process does not show on which thread its unit was. -/
theorem ProcessEnd.ofCourse_map_news (deadline : Time) {c c' : Course (Return Ending)}
    (same : c.map Return.news = c'.map Return.news) : ofCourse deadline c = ofCourse deadline c' := by
  have followed := congrArg (Course.goOn fun due _ => deadline ≤ due) same
  rw [Course.map_goOn, Course.map_goOn] at followed
  unfold ofCourse
  generalize c.goOn (fun due _ => deadline ≤ due) = d at followed ⊢
  generalize c'.goOn (fun due _ => deadline ≤ due) = d' at followed ⊢
  cases d <;> cases d' <;> simp_all [Course.map, Course.bind, Return.news]

section Callers

variable {g : Gate} {context : ContextId} {config : Config} {unit : Script} {w : World}
  {t t' : Thread}

/-- Activations over different registers give back different registers, and nothing else is
different. -/
theorem Activity.activated_news (x : Activity Ending) {v : World} {revocation : Option Revocation}
    (start : Machine.activate ⟨v, t⟩ context revocation =
      Machine.activate ⟨v, t'⟩ context revocation) :
    (x.activated context revocation ⟨v, t⟩).map Return.news =
      (x.activated context revocation ⟨v, t'⟩).map Return.news := by
  unfold Activity.activated
  rw [start, Course.map_bind, Course.map_bind]
  rfl

/-- **A run is the same for callers that give it the same start**, whatever else their threads are
in the middle of. -/
theorem run_news_congr (evaluate : Gate → Script → Activity Ending)
    (start : Machine.unitStart ⟨w, t⟩ context config = Machine.unitStart ⟨w, t'⟩ context config) :
    (run evaluate g context config unit ⟨w, t⟩).map Return.news =
      (run evaluate g context config unit ⟨w, t'⟩).map Return.news := by
  unfold run
  cases config.validate with
  | error e => rfl
  | ok _ =>
    cases isolation : config.isolation with
    | thread =>
      show (ThreadRun.watch _ t _).map _ = (ThreadRun.watch _ t' _).map _
      unfold ThreadRun.watch
      rw [Course.map_race, Course.map_race]
      rfl
    | process =>
      simp only [Machine.unitStart, isolation] at start
      have worker := ProcessEnd.ofCourse_map_news (config.deadline w.clock)
        (Activity.activated_news (evaluate (g.forRun ⟨w, t⟩) unit) start)
      show (runInProcess evaluate g context config unit ⟨w, t⟩).map _ =
        (runInProcess evaluate g context config unit ⟨w, t'⟩).map _
      unfold Gate.forRun Config.deadline at worker
      unfold runInProcess
      dsimp only
      rw [worker, Course.map_later, Course.map_later]
      rfl

end Callers

/-! ## The start of every run -/

/-- **When a unit begins as its run says.** A run takes from its unit nothing but what it does from
`unitStart` on. There the context of the run is the current one and no call is in progress exactly
if the run is on a thread, or if its caller has no call in progress and answers to no switch that has
been thrown. In the thread of its caller a run on a thread depends on nothing, and a run in a process
on the depth and on the switch: callers that agree about these get the same outcome, at the same
time, with the same worlds on the way. The switch of a run that has not begun is not thrown
(`fresh`). -/
theorem run_starts_iff (g : Gate) (runs : Nat) (context : ContextId) (config : Config)
    (unit : Script) (m : Machine) (fresh : .ofRun m.world.pool.runs.length ∉ m.world.revoked) :
    let start := m.unitStart context config
    (∀ evaluate : Gate → Script → Activity Ending,
      evaluate (g.forRun m) unit start = unitEvaluation runs (g.forRun m) unit start →
      run evaluate g context config unit m = launchAt (runs + 1) g context config unit m) ∧
    ((start.thread.register.visible start.world.isRevoked =
        some (runContext m.world context config) ∧ start.thread.depth = 0) ↔
      config.isolation = .thread ∨
        (m.thread.depth = 0 ∧
          ∀ r, m.thread.register.revocation = some r → r ∉ m.world.revoked)) ∧
    ∀ t : Thread,
      (config.isolation = .thread ∨
        (t.depth = m.thread.depth ∧ t.register.revocation = m.thread.register.revocation)) →
      (launchAt (runs + 1) g context config unit ⟨m.world, t⟩).map Return.news =
        (launchAt (runs + 1) g context config unit m).map Return.news := by
  intro start
  refine ⟨fun evaluate same => run_congr same, ?_, fun t same => ?_⟩
  · rw [current_unitStart_iff, depth_unitStart]
    cases config.isolation with
    | thread => simp [fresh]
    | process => simp [and_comm]
  · exact run_news_congr (unitEvaluation runs) (unitStart_congr same)

/-! ## A unit that looks whether its context is there -/

/-- A world with one context, whose switch the host has thrown. -/
def withdrawn : World :=
  { World.initial with
    store := Store.empty.share (Context.empty "a" none), revoked := [.named "r"] }

/-- A thread on which the context is active and answers to that switch. -/
def withdrawnThread : Thread := ⟨some ⟨0, some (.named "r")⟩, 0⟩

/-- Ends with whether a context is active. -/
def lookout : Script := .current fun visible => .finish (.ok (.bool visible.isSome))

/-- In a process the context of a run is hidden by a switch that has nothing to do with it. -/
theorem run_starts_hidden :
    .ofRun withdrawn.pool.runs.length ∉ withdrawn.revoked ∧
    ¬ ((Machine.unitStart ⟨withdrawn, withdrawnThread⟩ 0 forked).thread.register.visible
          withdrawn.isRevoked = some 0 ∧
        (Machine.unitStart ⟨withdrawn, withdrawnThread⟩ 0 forked).thread.depth = 0) := by
  have fresh : .ofRun withdrawn.pool.runs.length ∉ withdrawn.revoked := by decide
  have thrown : Revocation.named "r" ∈ withdrawn.revoked := by decide
  obtain ⟨-, starts, -⟩ :=
    run_starts_iff bareGate 0 0 forked lookout ⟨withdrawn, withdrawnThread⟩ fresh
  refine ⟨fresh, fun h => ?_⟩
  rcases starts.mp h with onThread | ⟨-, unthrown⟩
  · cases onThread
  · exact unthrown (.named "r") rfl thrown

/-- What `lookout` comes to in a process that was started by this thread. -/
theorem launchAt_lookout (t : Thread) :
    ∃ r v, (launchAt 1 bareGate 0 forked lookout ⟨withdrawn, t⟩).finish = .ok (r, v) ∧
      r.result.value = some (.bool (!t.register.revocation.any withdrawn.isRevoked)) := by
  let seen : Ending := .returned (.ok (.bool (!t.register.revocation.any withdrawn.isRevoked)))
  obtain ⟨r, w, ended, result, records⟩ : ∃ r w,
      (workerCourse 0 bareGate 0 forked lookout ⟨withdrawn, t⟩).goOn
        (fun due _ => forked.deadline withdrawn.clock ≤ due) = .ended r w ∧
      r.result = seen ∧ w.log.records = [] := by
    refine ⟨_, _, rfl, ?_, rfl⟩
    show Ending.returned (.ok (.bool (Machine.unitStart ⟨withdrawn, t⟩ 0 forked).visible.isSome)) =
      seen
    have visible := @isSome_visible_unitStart 0 forked ⟨withdrawn, t⟩
    exact congrArg (fun b => Ending.returned (.ok (.bool b))) visible
  have valid : forked.validate = .ok () := rfl
  have course := (@launchAt_process 0 bareGate 0 forked lookout ⟨withdrawn, t⟩ valid rfl).trans
    (runInProcess_eq (ofCourse_of_ended ended))
  obtain ⟨found, -, finish⟩ := Course.finish_later _ _ _ _
  refine ⟨_, _, (congrArg Course.finish course).trans finish, ?_⟩
  have read : Response.rereadResult? (Response.ofEnding r.result w.log.records).result =
      some (.ok (.bool (!t.register.revocation.any withdrawn.isRevoked))) := by
    rw [result]
    rfl
  have writable : ∀ d ∈ w.log.records, d.Writable := by simp [records]
  rw [ProcessEnd.outcome_ofEnding r.result w forked _ read writable, result]
  rfl

/-- The same unit with the same context and settings has different results for two callers. -/
theorem run_depends_on_caller :
    ¬ ∀ (runs : Nat) (g : Gate) (context : ContextId) (config : Config) (unit : Script) (w : World)
        (t t' : Thread), config.validate = .ok () →
      .ofRun w.pool.runs.length ∉ w.revoked → t.depth ≤ maxDepth → t'.depth ≤ maxDepth →
      ∀ r v r' v', (launchAt (runs + 1) g context config unit ⟨w, t⟩).finish = .ok (r, v) →
        (launchAt (runs + 1) g context config unit ⟨w, t'⟩).finish = .ok (r', v') →
        r.result.value = r'.result.value := by
  intro independent
  obtain ⟨r, v, seen, value⟩ := launchAt_lookout .initial
  obtain ⟨r', v', seen', value'⟩ := launchAt_lookout withdrawnThread
  have same := independent 0 bareGate 0 forked lookout withdrawn .initial withdrawnThread rfl
    (by decide) (by decide) (by decide) r v r' v' seen seen'
  rw [value, value'] at same
  -- The idle caller's unit sees its context, the other one does not.
  cases (show some (Value.bool true) = some (Value.bool false) from same)

end CapabilityGate
