import CapabilityGate.Proofs.Evaluation.Restoration
import CapabilityGate.Proofs.Runs.Isolation
import CapabilityGate.Proofs.Runs.Widening

/-!
# Runs with the checks of capabilities off

The unit of such a run begins where its widening stands (`stands_unitStart`), and each of its
stretches keeps it. What it leaves is no more than a context that nobody knows
(`launchAt_unmarked`): the log, the names and the older contexts are what they were, with the holders
that they had, unless the run was given up and its worker still holds the context of its caller. So
whatever runs afterwards with the checks on goes as it would have gone without that context
(`World.Unmarked.launch_inStep`).

`unrestricted_run_widens` puts this together for every run whose caller does not answer to a switch
that has been thrown; `unrestricted_run_denied` is a run whose caller does.
-/
namespace CapabilityGate

/-! ## The unit and its widening -/

section Unit

variable {g : Gate} {context : ContextId} {config : Config} {unit : Script} {m : Machine}

/-- What a run without checks adds to the contexts and to their holders. -/
theorem store_heldForRun (off : config.security = false) :
    (heldForRun m.world context config).store =
      ⟨m.world.store.contexts ++ [unrestrictedContext m.world context],
        m.world.store.contexts.length :: context :: m.world.store.references⟩ := by
  simp [heldForRun, off, Store.hold, Store.share]

theorem runContext_off (off : config.security = false) :
    runContext m.world context config = m.world.store.contexts.length := by
  simp [runContext, off]

theorem register_widening (off : config.security = false) :
    (m.unitStart context config).thread.register = (m.widening context config).register := by
  unfold Machine.widening Widening.register
  dsimp only
  rw [register_unitStart, runContext_off off]
  rfl

/-- The unit begins where the widening stands. -/
theorem stands_unitStart (off : config.security = false)
    (there : context < m.world.store.contexts.length)
    (unhidden : ∀ r, (m.unitStart context config).thread.register.revocation = some r →
      r ∉ m.world.revoked) :
    (m.widening context config).Stands (m.unitStart context config).world := by
  have store := @store_unitStart context config m
  rw [store_heldForRun off, runContext_off off] at store
  refine ⟨⟨unrestrictedContext m.world context, ?_, rfl, rfl⟩, there, ?_, fun r switch => ?_⟩
  · rw [store]
    show (m.world.store.contexts ++ [_])[m.world.store.contexts.length]? = _
    simp
  · rw [store]
    show Store.isAlive _ context = true
    simp [Store.isAlive, Store.hold]
  · have revoked : (m.unitStart context config).world.revoked = m.world.revoked := by
      unfold Machine.unitStart
      cases config.isolation <;> rfl
    rw [revoked]
    exact unhidden r switch

variable (runs : Nat)

theorem unit_covered (off : config.security = false)
    (hunit : unit.StaysPut (m.widening context config).switch)
    (hcatalog : g.catalog.StaysPut (m.widening context config).switch) :
    (unit.narrate (callStoryAt (launchStoryAt runs) maxDepth) (launchStoryAt runs) (g.forRun m)
        (m.unitStart context config)).Obeys (m.widening context config).Covers
      (fun a => a.thread = (m.unitStart context config).thread ∧ a.late = none)
      (m.unitStart context config).world :=
  Script.narrate_carries (g := g.forRun m) (callStoryAt_carries (g := g.forRun m) hcatalog maxDepth)
    unit hunit (m.unitStart context config) (register_widening off)

theorem unit_told :
    (unit.narrate (callStoryAt (launchStoryAt runs) maxDepth) (launchStoryAt runs) (g.forRun m)
        (m.unitStart context config)).courseBy Account.back =
      unitEvaluation runs (g.forRun m) unit (m.unitStart context config) :=
  unit.narrate_tells (launchStoryAt_tells runs) (g.forRun m)
    (callStoryAt_tells (launchStoryAt_tells runs) maxDepth (g.forRun m)) (m.unitStart context config)

/-- The unit keeps its widening, and so does the end of its activation. -/
theorem activation_keeps (off : config.security = false)
    (hunit : unit.StaysPut (m.widening context config).switch)
    (hcatalog : g.catalog.StaysPut (m.widening context config).switch)
    {n : Machine} {switch : Option Revocation}
    (start : n.activate (runContext m.world context config) switch = m.unitStart context config) :
    ((unitEvaluation runs (g.forRun m) unit).activated (runContext m.world context config) switch
        n).Obeys (m.widening context config).Keeps (fun _ => True)
      (m.unitStart context config).world := by
  have story := unit_covered runs off hunit hcatalog
  have work := story.courseBy (R := (m.widening context config).Keeps) (f := Account.back)
    (P := fun _ => True) (fun _ _ _ covers stands => (covers stands).1) (fun _ _ => trivial)
  rw [unit_told runs] at work
  unfold Activity.activated
  rw [start]
  refine work.bind fun r v _ => ⟨?_, trivial⟩
  rw [runContext_off off]
  exact (m.widening context config).keeps_release v

variable {runs}

/-- In every world that the unit is found in on a thread, the older contexts have the holders that
they had, and the caller's context has one more. -/
theorem holders_of_spares {v : World} (off : config.security = false)
    (spares : (m.widening context config).Spares (m.unitStart context config).world v)
    {id : ContextId} (older : id < m.world.store.contexts.length) :
    v.store.holders id = m.world.store.holders id + if context = id then 1 else 0 := by
  have other : m.world.store.contexts.length ≠ id := Nat.ne_of_gt older
  rw [spares.holders id older, store_unitStart, store_heldForRun off, runContext_off off,
    Store.holders_hold, if_neg other]
  simp [Store.holders, List.count_cons, other]

theorem contexts_of_spares {v : World} (off : config.security = false)
    (spares : (m.widening context config).Spares (m.unitStart context config).world v) :
    v.store.contexts = m.world.store.contexts ++ [unrestrictedContext m.world context] := by
  rw [spares.contexts, store_unitStart, store_heldForRun off]
  rfl

end Unit

/-! ## What a run may leave -/

/-- The contexts with numbers below `n`, and the runs with the checks on. -/
def Purview.below (n : Nat) : Purview :=
  ⟨(· < n), fun context config => context < n ∧ config.security = true, And.left⟩

theorem runContext_on {w : World} {context : ContextId} {config : Config}
    (on : config.security = true) : runContext w context config = context :=
  if_pos on

/-- A run with the checks on makes no context. -/
theorem heldForRun_sameBelow {n : Nat} {w v : World} {context : ContextId} {config : Config}
    (same : Store.SameBelow n w.store v.store) (on : config.security = true) :
    Store.SameBelow n (heldForRun w context config).store (heldForRun v context config).store := by
  have held : ∀ w, (heldForRun w context config).store = (w.store.hold context).hold context :=
    fun w => if_pos on
  rw [held, held]
  exact (same.hold context).hold context

/-- The same contexts below `n`, with the same number of holders each, and the same log. -/
def Likeness.below (n : Nat) : Likeness (.below n) where
  stores := Store.SameBelow n
  logs := Eq
  lineageOf same older := same.lineageOf older
  hold same _ := same.hold _
  release same _ := same.release _
  run same admitted :=
    ⟨(runContext_on admitted.2).trans (runContext_on admitted.2).symm,
      lt_of_eq_of_lt (runContext_on admitted.2) admitted.1,
      heldForRun_sameBelow same admitted.2⟩
  append := @Likeness.logs_append

/-- **`w.Unmarked after late`** — of what has happened between the two worlds nothing shows in the
log, in the names or in the contexts that were there before; nor in the number of their holders,
unless something goes on in the background. -/
structure World.Unmarked (w after : World) (late : Option Late) : Prop where
  log : after.log = w.log
  names : after.names = w.names
  contexts : ∀ id < w.store.contexts.length, after.store.find? id = w.store.find? id
  alive : ∀ id < w.store.contexts.length, after.store.isAlive id = w.store.isAlive id
  holders : late = none →
    ∀ id < w.store.contexts.length, after.store.holders id = w.store.holders id

theorem Store.find?_of_added {s s' : Store} {added : List Context}
    (contexts : s'.contexts = s.contexts ++ added) {id : ContextId} (older : id < s.contexts.length) :
    s'.find? id = s.find? id := by
  show s'.contexts[id]? = _
  rw [contexts]
  exact List.getElem?_append_left older

namespace World.Unmarked

variable {w after : World} {late : Option Late}

/-- Contexts may have been added, if the others have the holders that they had. -/
theorem of_holders (added : List Context) (log : after.log = w.log) (names : after.names = w.names)
    (contexts : after.store.contexts = w.store.contexts ++ added)
    (holders : ∀ id < w.store.contexts.length, after.store.holders id = w.store.holders id) :
    w.Unmarked after late := by
  refine ⟨log, names, fun id older => Store.find?_of_added contexts older, fun id older => ?_,
    fun _ => holders⟩
  exact Store.isAlive_congr (by rw [holders id older])

theorem lineageOf (h : w.Unmarked after late) {id : ContextId}
    (there : id < w.store.contexts.length) : after.store.lineageOf id = w.store.lineageOf id :=
  Store.lineageOf_congr h.contexts h.alive there

/-- Whatever runs next with the checks on begins with the contexts it would have had. -/
theorem lineageOf_unitStart (h : w.Unmarked after late) {t : Thread} {context : ContextId}
    {config : Config} (there : context < w.store.contexts.length) (on : config.security = true) :
    (Machine.unitStart ⟨after, t⟩ context config).world.store.lineageOf context =
      (Machine.unitStart ⟨w, t⟩ context config).world.store.lineageOf context := by
  have held : ∀ v : World, (Machine.unitStart ⟨v, t⟩ context config).world.store =
      ((v.store.hold context).hold context).hold context := by
    intro v
    rw [store_unitStart]
    simp [heldForRun, runContext, on]
  rw [held, held]
  have contexts : ∀ id < w.store.contexts.length,
      (((after.store.hold context).hold context).hold context).find? id =
        (((w.store.hold context).hold context).hold context).find? id := h.contexts
  refine Store.lineageOf_congr contexts (fun id older => ?_) there
  simp only [Store.isAlive_hold, h.alive id older]

/-- With nothing in the background, the world matches the one with the contexts of before. -/
theorem matches_before (h : w.Unmarked after late) (alone : late = none)
    (named : ∀ name id, w.context? name = some id → id < w.store.contexts.length) :
    (Likeness.below w.store.contexts.length).Matches after { after with store := w.store } := by
  have stores : after.store.SameBelow w.store.contexts.length w.store :=
    ⟨h.contexts, h.holders alone⟩
  refine ⟨⟨w.store, after.log, rfl⟩, stores, rfl, fun name id found => ?_⟩
  unfold World.context? at found
  rw [h.names] at found
  exact named name id found

/-- With nothing in the background, a run with the checks on goes as it goes with the contexts of
before. -/
theorem launch_inStep (h : w.Unmarked after late) (alone : late = none)
    (named : ∀ name id, w.context? name = some id → id < w.store.contexts.length) {g : Gate}
    {context : ContextId} {config : Config} {unit : Script}
    (older : context < w.store.contexts.length) (on : config.security = true)
    (hunit : unit.KeepsTo (.below w.store.contexts.length))
    (hcatalog : g.catalog.KeepsTo (.below w.store.contexts.length)) (runs : Nat) (t : Thread) :
    (launchAt runs g context config unit ⟨after, t⟩).InStep
      (Likeness.below w.store.contexts.length).Matches
      (Return.InStep (Likeness.below w.store.contexts.length).Matches t)
      (launchAt runs g context config unit ⟨{ after with store := w.store }, t⟩) := by
  have launches := launchAt_inStep hcatalog runs (Likeness.below w.store.contexts.length)
  exact launches g context config unit rfl ⟨older, on⟩ hunit after _ t trivial
    (h.matches_before alone named)

end World.Unmarked

section Run

variable {g : Gate} {context : ContextId} {config : Config} {unit : Script} {m : Machine}
  {runs : Nat}

/-- What a run without checks on a thread leaves. -/
theorem runOnThread_unmarked (off : config.security = false) (thread : config.isolation = .thread)
    (stands : (m.widening context config).Stands (m.unitStart context config).world)
    (held : m.world.store.isAlive context = true)
    (hunit : unit.StaysPut (m.widening context config).switch)
    (hcatalog : g.catalog.StaysPut (m.widening context config).switch)
    {x : Return Outcome} {after : World}
    (hend : (runOnThread (unitEvaluation runs) g context config unit m).finish = .ok (x, after)) :
    m.world.Unmarked after x.late := by
  let run := ThreadRun.next m.world context config
  have start : Machine.activate ⟨run.opened m.world, .initial⟩
      (runContext m.world context config) (some run.switch) = m.unitStart context config := by
    unfold Machine.unitStart
    rw [thread]
  have begun : (m.unitStart context config).world.log = m.world.log ∧
      (m.unitStart context config).world.names = m.world.names := by
    rw [← start]
    exact ⟨rfl, rfl⟩
  have worker := activation_keeps runs off hunit hcatalog start
  rcases worker.finish_race (m.widening context config).keeps_reach hend with
    ⟨ending, v, keeps, -, inTime⟩ | ⟨due, next, v, keeps, late⟩
  · -- The run is over in time and lets go of both contexts.
    cases inTime
    have spares := keeps stands
    have contexts := contexts_of_spares off spares
    refine .of_holders _ (spares.log.trans begun.1) (spares.names.trans begun.2) contexts
      fun id older => ?_
    have apart : run.effective ≠ id := by
      rw [show run.effective = m.world.store.contexts.length from runContext_off off]
      exact Nat.ne_of_gt older
    show ((v.store.release run.effective).release context).holders id = _
    rw [Store.holders_release, Store.holders_release, if_neg apart,
      holders_of_spares off spares older, Nat.sub_zero, Nat.add_sub_cancel]
  · -- The run is given up; its worker goes on and holds both, one of which was held anyway.
    cases late
    have spares := keeps stands
    obtain ⟨budgets, cancelled⟩ :=
      (v.revoke run.switch).changeBudget_eq run.budget Budget.cancel
    have same : (run.abandoned v).store = v.store ∧ (run.abandoned v).log = v.log ∧
        (run.abandoned v).names = v.names := by
      unfold ThreadRun.abandoned World.cancel
      rw [cancelled]
      exact ⟨rfl, rfl, rfl⟩
    have contexts := (congrArg Store.contexts same.1).trans (contexts_of_spares off spares)
    refine ⟨same.2.1.trans (spares.log.trans begun.1), same.2.2.trans (spares.names.trans begun.2),
      fun id older => Store.find?_of_added contexts older, fun id older => Store.isAlive_congr ?_,
      fun alone => nomatch alone⟩
    rw [same.1, holders_of_spares off spares older]
    split
    · rename_i caller
      subst caller
      have alive := Store.isAlive_iff.mp held
      omega
    · rfl

/-- With nobody else about, a course that waits finds the world it has left, later. -/
theorem Course.finish_later_reach {α : Type} (due : Time) (w : World) (next : World → Course α) :
    (later due w next).finish = (next (w.reach due)).finish := by
  unfold later
  split
  · rename_i come
    have same : w.reach due = w := by
      unfold World.reach
      rw [Nat.max_eq_left come]
    rw [same]
  · rfl

/-- What a run without checks in a process leaves. -/
theorem runInProcess_unmarked (off : config.security = false)
    (process : config.isolation = .process)
    (stands : (m.widening context config).Stands (m.unitStart context config).world)
    (hunit : unit.StaysPut (m.widening context config).switch)
    (hcatalog : g.catalog.StaysPut (m.widening context config).switch)
    {x : Return Outcome} {after : World}
    (hend : (runInProcess (unitEvaluation runs) g context config unit m).finish = .ok (x, after)) :
    m.world.Unmarked after x.late := by
  have start : Machine.activate
      ⟨((heldForRun m.world context config).fork config.memory).addBudget
        (config.deadline m.world.clock), m.thread⟩
      (runContext m.world context config) none = m.unitStart context config := by
    unfold Machine.unitStart
    rw [process]
  -- The log of the process is empty when its unit begins, and it stays empty.
  have worker := activation_keeps runs off hunit hcatalog start
  have followed : ((workerCourse runs g context config unit m).goOn
        fun due _ => config.deadline m.world.clock ≤ due).Obeys
      (m.widening context config).Keeps (fun _ => True) (m.unitStart context config).world :=
    worker.goOn (m.widening context config).keeps_reach
  have log := (followed.world stands).log
  rw [← start] at log
  rcases ending : ProcessEnd.ofCourse (config.deadline m.world.clock)
    (workerCourse runs g context config unit m) with ⟨processEnd, entries⟩
  have silent : (processEnd.outcome config ⟨processEnd.time - m.world.clock⟩).2 = [] := by
    have violations := ProcessEnd.violations_ofCourse (config.deadline m.world.clock) config
      ⟨processEnd.time - m.world.clock⟩ (workerCourse runs g context config unit m)
    rw [ending] at violations
    rcases violations with none | all
    · exact none
    · exact all.trans (congrArg Log.records log)
  rw [runInProcess_eq ending, Course.finish_later_reach, silent] at hend
  cases hend
  refine .of_holders [unrestrictedContext m.world context] rfl rfl ?_ fun id older => ?_
  · show ((heldForRun m.world context config).store.releaseBoth _ _).contexts = _
    rw [store_heldForRun off]
    rfl
  · show ((heldForRun m.world context config).store.releaseBoth _ _).holders id = _
    rw [store_heldForRun off, runContext_off off]
    simp [Store.releaseBoth, Store.release, Store.holders]

theorem launchAt_unmarked (off : config.security = false)
    (stands : (m.widening context config).Stands (m.unitStart context config).world)
    (held : m.world.store.isAlive context = true)
    (hunit : unit.StaysPut (m.widening context config).switch)
    (hcatalog : g.catalog.StaysPut (m.widening context config).switch)
    {x : Return Outcome} {after : World}
    (hend : (launchAt (runs + 1) g context config unit m).finish = .ok (x, after)) :
    m.world.Unmarked after x.late := by
  unfold launchAt run at hend
  cases valid : config.validate with
  | error e =>
    rw [valid] at hend
    cases hend
    exact ⟨rfl, rfl, fun _ _ => rfl, fun _ _ => rfl, fun _ _ _ => rfl⟩
  | ok _ =>
    rw [valid] at hend
    dsimp only at hend
    cases isolation : config.isolation with
    | thread =>
      rw [isolation] at hend
      exact runOnThread_unmarked off isolation stands held hunit hcatalog hend
    | process =>
      rw [isolation] at hend
      exact runInProcess_unmarked off isolation stands hunit hcatalog hend

end Run

/-! ## What is widened, and for how long -/

/-- The widening stands wherever the others have changed no context, have let go of the caller's
context at most as often as they held it, and have not thrown the switch. -/
theorem stands_of_holders {context : ContextId} {config : Config} {m : Machine} {w : World}
    (off : config.security = false)
    (stands : (m.widening context config).Stands (m.unitStart context config).world)
    (contexts : (m.unitStart context config).world.KeepsContexts w)
    (holders : (m.unitStart context config).world.store.holders context ≤
      w.store.holders context + m.world.store.holders context)
    (unthrown : ∀ r, (m.widening context config).switch = some r → r ∉ w.revoked) :
    (m.widening context config).Stands w := by
  obtain ⟨x, found, tokens, parent⟩ := stands.granted
  have older : context < m.world.store.contexts.length := stands.older
  have own := holders_of_spares off (refl_of (m.widening context config).Keeps _ stands) older
  rw [if_pos rfl] at own
  refine ⟨⟨x, contexts.find? found, tokens, parent⟩, stands.older, ?_, unthrown⟩
  rw [Store.isAlive_iff]
  show 0 < w.store.holders context
  omega

/-- **Switching the checks off widens the capabilities of one unit, and nothing else.** Take any run
without checks whose unit, and the bodies that it can call, stay put, with a caller who holds its
context and does not answer to a switch that has been thrown (`unhidden`).

The story of the unit is its evaluation. Each of its stretches that begins where the widening stands
has nothing in it that is refused for capabilities, and leaves the widening, the contexts and the log
as they are. The widening stands at the start, and wherever the others have not taken it away:
letting go of the caller's context is not enough for that. Where it stands, the capabilities that are
named are the universal one and those that the caller's context has then; and each decision about a
call is the one for any other context, unless that is that capabilities are missing. So what is
refused for another reason is refused as ever.

When the run is over, with nobody else about, the log and the names are those of before, every context
has the lineage that it had, and whatever runs next with the checks on begins with the contexts that
it would have had. Unless the run was given up and its worker is still there, a later run with the
checks on then goes in lockstep with the same run in a world that has the contexts of before: it waits
at the same times, is denied the same and comes to the same outcome, as long as it keeps to the
contexts that were there. -/
theorem unrestricted_run_widens (g : Gate) (runs : Nat) (context : ContextId) (config : Config)
    (unit : Script) (m : Machine) (off : config.security = false)
    (there : context < m.world.store.contexts.length)
    (held : m.world.store.isAlive context = true)
    (unhidden : ∀ r, (m.unitStart context config).thread.register.revocation = some r →
      r ∉ m.world.revoked)
    (hunit : unit.StaysPut (m.widening context config).switch)
    (hcatalog : g.catalog.StaysPut (m.widening context config).switch) :
    let u := m.widening context config
    let start := m.unitStart context config
    let story := unit.narrate (callStoryAt (launchStoryAt runs) maxDepth) (launchStoryAt runs)
      (g.forRun m) start
    let bound := m.world.store.contexts.length
    (story.courseBy Account.back = unitEvaluation runs (g.forRun m) unit start ∧
      story.Obeys u.Covers (fun a => a.thread = start.thread ∧ a.late = none) start.world) ∧
    (u.Stands start.world ∧
      ∀ w, start.world.KeepsContexts w →
        start.world.store.holders context ≤
          w.store.holders context + m.world.store.holders context →
        (∀ r, u.switch = some r → r ∉ w.revoked) → u.Stands w) ∧
    (∀ w, u.Stands w →
      (∀ c, c ∈ heldTypes (Machine.visible ⟨w, start.thread⟩) ↔
        c = Capability.universal ∨ c ∈ (w.store.lineageOf context).types true) ∧
      ∀ visible callee args,
        g.catalog.decision visible callee args =
            g.catalog.decision (Machine.visible ⟨w, start.thread⟩) callee args ∨
          ∃ missing held resource,
            g.catalog.decision visible callee args = .lacking missing held resource) ∧
    ∀ x after, (launchAt (runs + 1) g context config unit m).finish = .ok (x, after) →
      (after.log = m.world.log ∧ after.names = m.world.names ∧
        ∀ id < bound, after.store.lineageOf id = m.world.store.lineageOf id ∧
          ∀ t (later : Config), later.security = true →
            runContext after id later = id ∧
              (Machine.unitStart ⟨after, t⟩ id later).world.store.lineageOf id =
                (Machine.unitStart ⟨m.world, t⟩ id later).world.store.lineageOf id) ∧
      (x.late = none → (∀ name id, m.world.context? name = some id → id < bound) →
        ∀ (g' : Gate) (runs' : Nat) (id : ContextId) (later : Config) (unit' : Script) (t : Thread),
          id < bound → later.security = true → unit'.KeepsTo (.below bound) →
          g'.catalog.KeepsTo (.below bound) →
          (launchAt runs' g' id later unit' ⟨after, t⟩).InStep (Likeness.below bound).Matches
            (Return.InStep (Likeness.below bound).Matches t)
            (launchAt runs' g' id later unit' ⟨{ after with store := m.world.store }, t⟩)) := by
  intro u start story bound
  have stands : u.Stands start.world := stands_unitStart off there unhidden
  refine ⟨⟨unit_told runs, unit_covered runs off hunit hcatalog⟩, ⟨stands, ?_⟩, ?_, ?_⟩
  · intro w contexts holders unthrown
    exact stands_of_holders off stands contexts holders unthrown
  · intro w stands
    have sees : u.Sees ⟨w, start.thread⟩ := stands.sees (register_widening off)
    refine ⟨sees.mem_heldTypes_iff, fun visible callee args => ?_⟩
    exact Catalog.decision_eq_or_lacking sees.met
  · intro x after hend
    have unmarked := launchAt_unmarked off stands held hunit hcatalog hend
    refine ⟨⟨unmarked.log, unmarked.names, fun id older => ⟨unmarked.lineageOf older, ?_⟩⟩, ?_⟩
    · intro t later on
      exact ⟨runContext_on on, unmarked.lineageOf_unitStart older on⟩
    · intro alone named g' runs' id later unit' t older on hunit' hcatalog'
      exact unmarked.launch_inStep alone named older on hunit' hcatalog' runs' t

/-! ## A caller who answers to a thrown switch -/

/-- The default settings without checks, in a process. -/
def unchecked : Config := { forked with security := false }

theorem prober_staysPut (own : Option Revocation) (result : Result) :
    (prober result).StaysPut own :=
  fun _ => trivial

theorem bareGate_staysPut (own : Option Revocation) : bareGate.catalog.StaysPut own := by
  intro callee body hbody
  rw [bareGate_body?] at hbody
  cases hbody

/-- An idle caller's unit is denied nothing, and its run leaves nothing in the log. -/
theorem unrestricted_run_widens_idle :
    unchecked.security = false ∧ 0 < withdrawn.store.contexts.length ∧
    withdrawn.store.isAlive 0 = true ∧
    (∀ r, (Machine.unitStart ⟨withdrawn, .initial⟩ 0 unchecked).thread.register.revocation = some r →
      r ∉ withdrawn.revoked) ∧
    (prober (.ok .unit)).StaysPut (Machine.widening ⟨withdrawn, .initial⟩ 0 unchecked).switch ∧
    bareGate.catalog.StaysPut (Machine.widening ⟨withdrawn, .initial⟩ 0 unchecked).switch ∧
    ∃ x after, (launchAt 1 bareGate 0 unchecked (prober (.ok .unit)) ⟨withdrawn, .initial⟩).finish =
      .ok (x, after) ∧ after.log = .empty := by
  have unhidden : ∀ r,
      (Machine.unitStart ⟨withdrawn, .initial⟩ 0 unchecked).thread.register.revocation = some r →
      r ∉ withdrawn.revoked := fun r own => nomatch own
  have ends : ∃ x after, (launchAt 1 bareGate 0 unchecked (prober (.ok .unit))
      ⟨withdrawn, .initial⟩).finish = .ok (x, after) := by
    have course := (@launchAt_process 0 bareGate 0 unchecked (prober (.ok .unit))
      ⟨withdrawn, .initial⟩ rfl rfl).trans (runInProcess_eq rfl)
    exact ⟨_, _, (congrArg Course.finish course).trans (Course.finish_later_reach _ _ _)⟩
  obtain ⟨x, after, hend⟩ := ends
  obtain ⟨-, -, -, later⟩ := unrestricted_run_widens bareGate 0 0 unchecked (prober (.ok .unit))
    ⟨withdrawn, .initial⟩ rfl (by decide) (by decide) unhidden (prober_staysPut _ _)
    (bareGate_staysPut _)
  exact ⟨rfl, by decide, by decide, unhidden, prober_staysPut _ _, bareGate_staysPut _, x, after,
    hend, (later x after hend).1.1⟩

/-- In a process the unit of a caller who answers to a thrown switch sees no context at all, so it is
denied what it asks for, although the checks are off. -/
theorem unrestricted_run_denied :
    ¬ ∀ (runs : Nat) (g : Gate) (context : ContextId) (config : Config) (unit : Script) (m : Machine),
      config.validate = .ok () → config.security = false →
      context < m.world.store.contexts.length → m.world.store.isAlive context = true →
      .ofRun m.world.pool.runs.length ∉ m.world.revoked →
      unit.StaysPut (m.widening context config).switch →
      g.catalog.StaysPut (m.widening context config).switch →
      ∀ x after, (launchAt (runs + 1) g context config unit m).finish = .ok (x, after) →
        after.log.records = m.world.log.records := by
  intro undenied
  have valid : unchecked.validate = .ok () := rfl
  obtain ⟨r, w, ended, result, records⟩ : ∃ r w,
      (workerCourse 0 bareGate 0 unchecked (prober (.ok .unit)) ⟨withdrawn, withdrawnThread⟩).goOn
        (fun due _ => unchecked.deadline withdrawn.clock ≤ due) = .ended r w ∧
      r.result = .returned (.ok .unit) ∧ w.log.records = [blockedRequest] := by
    unfold workerCourse Activity.activated
    dsimp only
    rw [evaluate_prober (.ok .unit) rfl rfl]
    exact ⟨_, _, rfl, rfl, rfl⟩
  obtain ⟨outcome, finished, course, log⟩ := @launchAt_of_ended 0 bareGate 0 unchecked
    (prober (.ok .unit)) ⟨withdrawn, withdrawnThread⟩ valid rfl r w ended
  have readable : r.result.Readable ∧ ∀ d ∈ w.log.records, d.Writable := by
    rw [result, records]
    exact ⟨⟨by decide, by simp [Value.floats]⟩, by decide⟩
  have same := undenied 0 bareGate 0 unchecked (prober (.ok .unit)) ⟨withdrawn, withdrawnThread⟩ valid
    rfl (by decide) (by decide) (by decide) (prober_staysPut _ _) (bareGate_staysPut _) _ _
    ((congrArg Course.finish course).trans (Course.finish_later_reach _ _ _))
  rw [log, if_pos readable, records, Log.extend_records] at same
  cases same

end CapabilityGate
