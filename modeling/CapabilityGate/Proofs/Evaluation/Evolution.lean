import CapabilityGate.Proofs.Admission.Listing
import CapabilityGate.Proofs.Evaluation.Conduct
import CapabilityGate.Sandbox.Run

/-!
# What evaluations do to a world

`World.Evolves c` is the list of all changes of a world that evaluations through gates with the
catalog `c` are made of, each with what is known when it happens. `Gate.execute_obeys` shows once
and for all that every stretch of every evaluation is a sequence of them and that the thread is
given back as it was. What all evaluations keep is then one induction over `World.Evolves`.
-/
namespace CapabilityGate

/-- **`World.Evolves c w w'`** — changes that evaluations through gates with this catalog make lead
from one world to the other. -/
inductive World.Evolves (c : Catalog Body) : World → World → Prop where
  | refl (w : World) : Evolves c w w
  | trans {u v w : World} : Evolves c u v → Evolves c v w → Evolves c u w
  /-- Time passes. -/
  | reach (w : World) (time : Time) : Evolves c w (w.reach time)
  /-- A budget is checked. -/
  | check (w : World) (budget : Option BudgetId) : Evolves c w (w.afterCheck budget)
  /-- A registered body is entered. -/
  | enter (m : Machine) (callee : Value) :
      c.Admits callee m.visible → m.thread.depth ≤ maxDepth →
      Evolves c m.world (m.noteEntry callee true).world
  /-- A primitive method is entered. -/
  | primitive (m : Machine) (callee : Value) :
      m.thread.depth ≤ maxDepth → Evolves c m.world (m.noteEntry callee false).world
  /-- A call is refused for what the active context does not hold. -/
  | refuse (m : Machine) {callee receiver : Value} {symbol : String} {r : Requirement}
      {body : Body} (args : List Value) :
      c.route callee = .gated symbol r receiver body → ¬ r.MetBy m.visible →
      Evolves c m.world (m.denyAll (r.missing m.visible) (r.resource args) symbol).world
  /-- A resource is refused because the nearest token does not cover it. -/
  | deny (m : Machine) (capability : Capability) (resource operation : String) :
      (∀ t, (m.visible.bind fun l => l.token? capability true) = some t →
        t.covers (some resource) = false) →
      Evolves c m.world (m.deny capability (some resource) operation).world
  /-- A context is activated. -/
  | activate (m : Machine) (context : ContextId) (revocation : Option Revocation) :
      Evolves c m.world (m.activate context revocation).world
  /-- A holder of a context lets go of it. -/
  | release (w : World) (context : ContextId) : Evolves c w (w.release context)
  | revoke (w : World) (revocation : Revocation) : Evolves c w (w.revoke revocation)
  | cancel (w : World) : Evolves c w w.cancelHost
  | report (w : World) (result : Result) : Evolves c w (w.report result)
  /-- A signal is handled. -/
  | spend (w : World) (spent : List Nat) : Evolves c w { w with spent }
  /-- A run on a thread begins, ends in time, is given up, and returns after that. -/
  | opened (w : World) (run : ThreadRun) : Evolves c w (run.opened w)
  | closed (w : World) (run : ThreadRun) : Evolves c w (run.closed w)
  | abandoned (w : World) (run : ThreadRun) : Evolves c w (run.abandoned w)
  | returned (w : World) (run : ThreadRun) : Evolves c w (run.returned w)
  /-- A run in a process begins. -/
  | held (w : World) (context : ContextId) (config : Config) :
      Evolves c w (heldForRun w context config)
  /-- A process, which had a copy of the world, comes back with its journal. -/
  | joined (w : World) {child child' : World} (effective context : ContextId)
      (violations : List Record) :
      child.entries = [] → child.log = .empty → Evolves c child child' →
      Evolves c w (afterProcess effective context violations child'.entries w)

namespace World

variable {c : Catalog Body}

instance : IsPreorder World (Evolves c) where
  refl := .refl
  trans _ _ _ := .trans

/-- A change of a budget changes nothing but budgets. -/
theorem changeBudget_eq (w : World) (id : BudgetId) (f : Budget → Budget) :
    ∃ budgets, w.changeBudget id f = { w with budgets } := by
  unfold changeBudget
  split
  · exact ⟨w.budgets, rfl⟩
  · exact ⟨_, rfl⟩

theorem afterCheck_eq (w : World) (budget : Option BudgetId) :
    ∃ budgets, w.afterCheck budget = { w with budgets } := by
  cases budget with
  | none => exact ⟨w.budgets, rfl⟩
  | some id => exact w.changeBudget_eq id _

theorem cancelHost_eq (w : World) : ∃ budgets, w.cancelHost = { w with budgets } := by
  unfold cancelHost
  split
  · exact ⟨w.budgets, rfl⟩
  · exact w.changeBudget_eq _ _

end World

/-! ## Admission -/

namespace Gate

variable {g : Gate} {run : Script → Activity Ending}

theorem enterBody_obeysFrom (hrun : ∀ s, (run s).Obeys (World.Evolves g.catalog)) {body : Body}
    {receiver callee : Value} {args : List Value} {m : Machine}
    (hadmits : g.catalog.Admits callee m.visible) (hdepth : m.thread.depth ≤ maxDepth) :
    (enterBody run body receiver callee args m).ObeysFrom (World.Evolves g.catalog) m :=
  (hrun (body receiver args) (m.noteEntry callee true)).after (.enter m callee hadmits hdepth) rfl

theorem follow_obeysFrom (hrun : ∀ s, (run s).Obeys (World.Evolves g.catalog)) (callee : Value)
    (args : List Value) {m : Machine} (hdepth : m.thread.depth ≤ maxDepth) :
    (g.follow run callee args m).ObeysFrom (World.Evolves g.catalog) m := by
  unfold follow
  -- One case for each route of a call.
  split
  · exact Activity.obeys_refuse _ m
  · rename_i symbol r receiver body hroute
    dsimp only
    split
    · rename_i hmissing
      have hmet : r.MetBy m.visible :=
        (r.missing_eq_nil_iff m.visible).1 (List.isEmpty_iff.1 hmissing)
      exact enterBody_obeysFrom hrun (Catalog.admits_of_gated hroute hmet) hdepth
    · rename_i hmissing
      have hmet : ¬ r.MetBy m.visible := fun h =>
        hmissing (List.isEmpty_iff.2 ((r.missing_eq_nil_iff m.visible).2 h))
      refine (Activity.obeys_refuse _ _).after (.refuse m args hroute hmet) ?_
      rw [Machine.denyAll_eq]
      rfl
  · rename_i receiver body hroute
    exact enterBody_obeysFrom hrun (Catalog.admits_of_free hroute) hdepth
  · exact (Activity.obeys_pure _ _).after (.primitive m callee hdepth) rfl
  · exact Activity.obeys_refuse _ m

theorem checkedCall_obeys (hrun : ∀ s, (run s).Obeys (World.Evolves g.catalog)) (callee : Value)
    (args : List Value) : (g.checkedCall run callee args).Obeys (World.Evolves g.catalog) := by
  have hwithin : (g.followWithin run callee args).Obeys (World.Evolves g.catalog) := by
    intro m
    unfold followWithin
    split
    · exact Activity.obeys_refuse _ m
    · exact follow_obeysFrom hrun callee args (by omega)
  intro m
  have hcheck : World.Evolves g.catalog m.world (m.afterCheck g.budget).world :=
    .check m.world g.budget
  unfold checkedCall
  dsimp only
  split
  · exact (Activity.obeys_refuse _ _).after hcheck rfl
  · split
    · exact (hwithin.counted _).after hcheck rfl
    · exact (Activity.obeys_refuse _ _).after hcheck rfl

/-- A question for a covering token is answered without waiting. -/
theorem coveringToken_evolves (g : Gate) (capability : Capability) (resource operation : String)
    (m : Machine) :
    World.Evolves g.catalog m.world (g.coveringToken capability resource operation m).2.world ∧
      (g.coveringToken capability resource operation m).2.thread = m.thread := by
  have hcheck : World.Evolves g.catalog m.world (m.afterCheck g.budget).world :=
    .check m.world g.budget
  unfold coveringToken
  dsimp only
  split
  · exact ⟨hcheck, rfl⟩
  · split
    · rename_i token htoken
      split
      · exact ⟨hcheck, rfl⟩
      · rename_i hcovers
        refine ⟨hcheck.trans (.deny _ capability resource operation fun t ht => ?_), rfl⟩
        rw [htoken] at ht
        cases ht
        simpa using hcovers
    · rename_i hnone
      refine ⟨hcheck.trans (.deny _ capability resource operation fun t ht => ?_), rfl⟩
      rw [hnone] at ht
      cases ht

end Gate

/-! ## Scripts and calls -/

/-- Launches through gates with this catalog obey its evolution. -/
def Launches.Obey (c : Catalog Body) (launches : Launches) : Prop :=
  ∀ (g : Gate) context config unit, g.catalog = c →
    (launches g context config unit).Obeys (World.Evolves c)

/-- Calls through gates with this catalog obey its evolution. -/
def Calls.Obey (c : Catalog Body) (calls : Calls) : Prop :=
  ∀ (g : Gate) callee args, g.catalog = c → (calls g callee args).Obeys (World.Evolves c)

section Evaluation

variable {c : Catalog Body} {calls : Calls} {launches : Launches}

theorem Script.evaluate_obeys (hcalls : calls.Obey c) (hlaunches : launches.Obey c) (g : Gate)
    (hg : g.catalog = c) (s : Script) :
    (s.evaluate calls launches g).Obeys (World.Evolves c) := by
  -- On the tree of the script; what a request comes to is one change, or an activity that obeys.
  induction s with
  | finish result => exact Activity.obeys_pure _
  | panic message => exact Activity.obeys_pure _
  | call callee args next ih => exact (hcalls g callee args hg).andThen ih
  | require capability resource operation next ih =>
    intro m
    obtain ⟨hworld, hthread⟩ := g.coveringToken_evolves capability resource operation m
    rw [hg] at hworld
    exact (ih _ _).after hworld hthread
  | find name next ih => exact fun m => ih _ m
  | within context body next ihbody ih =>
    have hbody := ihbody.activated context none (fun m => .activate m context none)
      (fun w => .release w context)
    exact hbody.andThen ih
  | current next ih => exact fun m => ih _ m
  | revoke revocation next ih => exact fun m => (ih _).change (.revoke m.world revocation)
  | cancel next ih => exact fun m => (ih _).change (.cancel m.world)
  | report result next ih => exact fun m => (ih _).change (.report m.world result)
  | sleep time next ih =>
    intro m
    exact Course.obeys_later (.refl m.world) fun v => ih ⟨v, m.thread⟩
  | launch context config unit next ihunit ih =>
    exact (hlaunches g context config unit hg).bind ih
  | raise signal next ih =>
    intro m
    unfold evaluate
    split
    · rename_i spent _
      exact (ih _).change (.spend m.world spent)
    · exact .refl m.world
  | exit status => exact fun m => .refl m.world
  | allocate bytes next ih =>
    intro m
    unfold evaluate
    split
    · exact ih m
    · exact .refl m.world

theorem callAt_obeys (hlaunches : launches.Obey c) (room : Nat) :
    (callAt launches room).Obey c := by
  -- On the number of calls that may still be nested in this one.
  induction room with
  | zero =>
    intro g callee args hg
    subst hg
    exact g.checkedCall_obeys (fun _ => Activity.obeys_refuse _) callee args
  | succ room ih =>
    intro g callee args hg
    subst hg
    exact g.checkedCall_obeys (fun s => s.evaluate_obeys ih hlaunches g rfl) callee args

/-! ## Runs -/

/-- Evaluations through gates with this catalog obey its evolution. -/
def EvaluatesWithin (c : Catalog Body) (evaluate : Gate → Script → Activity Ending) : Prop :=
  ∀ (g : Gate) s, g.catalog = c → (evaluate g s).Obeys (World.Evolves c)

variable {evaluate : Gate → Script → Activity Ending}

/-- The worker of a run on a thread has a register and a depth of its own; the thread of its caller
is not touched. -/
theorem runOnThread_obeys (hevaluate : EvaluatesWithin c evaluate) (g : Gate) (hg : g.catalog = c)
    (context : ContextId) (config : Config) (unit : Script) :
    (runOnThread evaluate g context config unit).Obeys (World.Evolves c) := by
  intro m
  unfold runOnThread
  dsimp only
  generalize ThreadRun.next m.world context config = run
  have hwork := (hevaluate ⟨g.catalog, some run.budget⟩ unit hg).activated run.effective
    (some run.switch) (fun m => .activate m run.effective (some run.switch))
    (fun w => .release w run.effective)
  have hworker := Course.Obeys.after (.opened m.world run)
    (hwork ⟨run.opened m.world, .initial⟩)
  -- Either the worker is back in time, or it is given up and goes on in the background.
  refine hworker.race (fun x w hx => ?_) fun due next w hnext => ?_
  · exact ⟨.closed w run, rfl, hx.late⟩
  · refine ⟨.abandoned w run, rfl, Late.allObey_some.2 fun v => ?_⟩
    refine (hnext v).bind fun x w hx => ?_
    exact (hx.late.courseOf (run.returned w)).after (.returned w run)

/-- The journal that comes back from a process is that of a world to which its copy has evolved. -/
theorem ProcessEnd.ofCourse_entries (deadline : Time) {course : Course (Return Ending)}
    {Q : Return Ending → Prop} {w : World} (h : course.Obeys (World.Evolves c) Q w) :
    ∃ w', World.Evolves c w w' ∧ (ofCourse deadline course).2 = w'.entries := by
  have hgo : (course.goOn fun due _ => deadline ≤ due).Obeys (World.Evolves c) Q w :=
    h.goOn .reach
  refine ⟨_, hgo.world, ?_⟩
  unfold ofCourse
  cases course.goOn fun due _ => deadline ≤ due <;> rfl

theorem runInProcess_obeys (hevaluate : EvaluatesWithin c evaluate) (g : Gate) (hg : g.catalog = c)
    (context : ContextId) (config : Config) (unit : Script) :
    (runInProcess evaluate g context config unit).Obeys (World.Evolves c) := by
  intro m
  let held := heldForRun m.world context config
  let deadline := m.world.clock + config.timeout.nanos
  let child : Machine := ⟨(held.fork config.memory).addBudget deadline, m.thread⟩
  let effective := runContext m.world context config
  let work := evaluate ⟨g.catalog, some m.world.budgets.length⟩ unit
  have hwork : (work.activated effective none).Obeys (World.Evolves c) :=
    (hevaluate ⟨g.catalog, some m.world.budgets.length⟩ unit hg).activated effective none
      (fun m => .activate m effective none) (fun w => .release w effective)
  -- The process evolves on its own; only its journal and its records come back.
  obtain ⟨child', hchild, hentries⟩ :=
    ProcessEnd.ofCourse_entries deadline (hwork child)
  unfold runInProcess
  refine Course.obeys_later (.held m.world context config) fun v => ⟨?_, rfl, Late.allObey_none⟩
  show World.Evolves c v (afterProcess effective context _ (ProcessEnd.ofCourse deadline _).2 v)
  rw [hentries]
  exact .joined v effective context _ rfl rfl hchild

theorem run_obeys (hevaluate : EvaluatesWithin c evaluate) (g : Gate) (hg : g.catalog = c)
    (context : ContextId) (config : Config) (unit : Script) :
    (run evaluate g context config unit).Obeys (World.Evolves c) := by
  unfold run
  split
  · exact Activity.obeys_pure _
  · split
    · exact runOnThread_obeys hevaluate g hg context config unit
    · exact runInProcess_obeys hevaluate g hg context config unit

theorem launchAt_obeys (fuel : Nat) : (launchAt fuel).Obey c := by
  -- On the number of runs that may be nested; a unit is evaluated with launches of one less.
  induction fuel with
  | zero => exact fun g context config unit hg => Activity.obeys_pure _
  | succ fuel ih =>
    intro g context config unit hg
    refine run_obeys (fun g s hg => ?_) g hg context config unit
    exact s.evaluate_obeys (callAt_obeys ih maxDepth) ih g hg

/-- **Every evaluation is made of the listed changes.** Whatever the script does and wherever it
begins, its stretches are sequences of them, also those of the workers that it leaves behind, and
register and depth of its thread are as before. -/
theorem Gate.execute_obeys (g : Gate) (s : Script) :
    (g.execute s).Obeys (World.Evolves g.catalog) :=
  s.evaluate_obeys (callAt_obeys (launchAt_obeys nestedRuns) maxDepth) (launchAt_obeys nestedRuns) g
    rfl

end Evaluation

end CapabilityGate
