import CapabilityGate.Proofs.Evaluation.Twins
import CapabilityGate.Proofs.Runs.Process

/-!
# The same unit on a thread and in a process

A unit that stays inside cannot tell whether it runs on a thread or in a process: its two
evaluations go side by side (`courses_alike`). So it comes to the same ending in both, and the
outcomes differ only by what happens to a returned value on its way home: `isolations_agree_iff`.
-/
namespace CapabilityGate

/-! ## Runs on both sides -/

/-- **`o.Agrees p`** — two outcomes say the same, the time that was taken aside. -/
structure Outcome.Agrees (o p : Outcome) : Prop where
  success : o.success = p.success
  value : o.value = p.value
  failure : o.failure = p.failure

/-- Settings with another kind of isolation. -/
def Config.isolated (config : Config) (isolation : Isolation) : Config := { config with isolation }

/-- **`config.mayAllocate m bytes`** — the memory is there on the thread and in the process. -/
def Config.mayAllocate (config : Config) (m : Machine) (bytes : Nat) : Prop :=
  m.world.affords bytes ∧ bytes < config.memory.bytes.toNat

section Run

variable {runs : Nat} {g : Gate} {context : ContextId} {config : Config} {unit : Script}
  {m : Machine}

theorem launchAt_thread (valid : config.validate = .ok ()) :
    launchAt (runs + 1) g context (config.isolated .thread) unit m =
      runOnThread (unitEvaluation runs) g context (config.isolated .thread) unit m :=
  launchAt_on_thread valid rfl

variable (runs context) in
/-- The two courses of a unit, the one of its worker thread and the one of its process. -/
theorem courses_alike (idle : m.thread = .initial)
    (fresh : .ofRun m.world.pool.runs.length ∉ m.world.revoked)
    (hunit : unit.StaysInside (config.mayAllocate m))
    (hcatalog : g.catalog.StaysInside (config.mayAllocate m)) :
    let run := ThreadRun.next m.world context (config.isolated .thread)
    Course.Alike
      (World.Twins run.switch (config.deadline m.world.clock) (config.mayAllocate m))
      (fun r s : Return Ending => r.result = s.result)
      ((unitEvaluation runs ⟨g.catalog, some run.budget⟩ unit).activated run.effective
        (some run.switch) ⟨run.opened m.world, .initial⟩)
      (workerCourse runs g context (config.isolated .process) unit m) := by
  intro run
  have own : ∀ name, run.switch ≠ .named name := fun name h => Revocation.noConfusion h
  have work : (unitEvaluation runs ⟨g.catalog, some run.budget⟩ unit).Twins run.switch
      (config.deadline m.world.clock) (config.mayAllocate m) :=
    Script.evaluate_twins (g := ⟨g.catalog, some run.budget⟩) own
      (callAt_twins (g := ⟨g.catalog, some run.budget⟩) own hcatalog maxDepth) unit hunit
  obtain ⟨world, thread⟩ := m
  cases idle
  have inside : Machine.Twins run.switch (config.deadline world.clock)
      (config.mayAllocate ⟨world, .initial⟩)
      (Machine.activate ⟨run.opened world, .initial⟩ run.effective (some run.switch))
      (Machine.activate ⟨((heldForRun world context (config.isolated .process)).fork
        config.memory).addBudget (config.deadline world.clock), .initial⟩ run.effective none) := by
    refine ⟨⟨⟨.empty, [], some config.memory, world.pool, rfl⟩, fresh, Nat.le_add_right _ _,
      fun _ none => absurd none List.not_mem_nil, fun bytes hmay => ⟨hmay.1, ?_⟩⟩,
      ⟨run.effective, rfl, rfl⟩, rfl⟩
    simpa [World.affords, Machine.activate, World.hold, World.fork, World.addBudget] using hmay.2
  refine Course.Alike.bind (work _ _ inside) fun r s w v hrs hwv => ?_
  exact ⟨hwv.change (f := fun w => w.release run.effective) (fun _ _ _ _ _ => rfl) hwv.unthrown
    hwv.early, hrs.result⟩

end Run

/-! ## Outcomes -/

/-- What is logged before the end of all times can be written. -/
theorem Record.writable_of_dated {d : Record} {deadline : Time} (after : 0 ≤ d.timestamp)
    (before : d.timestamp ≤ deadline) (fits : deadline / nanosPerSecond < Wire.epochSeconds) :
    d.Writable := by
  refine ⟨after, Nat.lt_of_le_of_lt (Nat.div_le_div_right ?_) fits⟩
  omega

/-- The caller of a process reads the outcome that the caller of a thread gets, except for a value
that does not come back as it was. -/
theorem ProcessEnd.outcome_agrees_iff {ending : Ending} {w : World} {config : Config}
    {elapsed elapsed' : Duration} (writable : ∀ d ∈ w.log.records, d.Writable) :
    (ending.outcome elapsed).Agrees ((ofEnding ending w).outcome config elapsed').1 ↔
      ∀ v, (ending.outcome elapsed).value = some v →
        v.nesting ≤ Response.valueLevels ∧ v.reread? = some v := by
  cases ending with
  | returned result =>
    cases result with
    | ok v =>
      have value : ∀ u, ((Ending.returned (.ok v)).outcome elapsed).value = some u ↔ u = v :=
        fun u => ⟨fun h => (Option.some.inj h).symm, fun h => congrArg some h.symm⟩
      simp only [value, forall_eq]
      cases read : Response.rereadResult? (.ok v) with
      | some result =>
        obtain ⟨shallow, u, reread, rfl⟩ := Response.rereadResult?_ok_iff.mp read
        rw [outcome_ofEnding (.returned (.ok v)) w config elapsed' read writable, reread]
        refine ⟨fun h => ⟨shallow, h.value.symm⟩, fun h => ?_⟩
        cases h.2
        exact ⟨rfl, rfl, rfl⟩
      | none =>
        have lost : ¬ (Ending.returned (.ok v)).Readable := fun readable => by
          have some := (Ending.readable_iff _ w.log.records).mp readable
          rw [Response.ofEnding, read] at some
          cases some
        obtain ⟨message, failed⟩ :=
          outcome_ofEnding_unread (.returned (.ok v)) w config elapsed' fun h => lost h.1
        rw [failed]
        refine ⟨fun h => Bool.noConfusion h.success, fun h => ?_⟩
        have some := Response.rereadResult?_ok_iff.mpr ⟨h.1, v, h.2, rfl⟩
        rw [read] at some
        cases some
    | error f =>
      rw [outcome_ofEnding (.returned (.error f)) w config elapsed' rfl writable]
      exact ⟨fun _ _ none => absurd none.symm (Option.some_ne_none _), fun _ => ⟨rfl, rfl, rfl⟩⟩
  | panicked message =>
    rw [outcome_ofEnding (.panicked message) w config elapsed' rfl writable]
    exact ⟨fun _ _ none => absurd none.symm (Option.some_ne_none _), fun _ => ⟨rfl, rfl, rfl⟩⟩

/-- **The two kinds of isolation agree except for what the way home does to a value.** Take any unit
that stays inside, with any settings that are accepted, started from an idle thread. Both runs come
to an outcome. The outcomes say the same exactly if the unit, on a thread, does not return a value
in time, or returns one that is not nested too deep and comes back as it was. So they agree about
every fault, every panic and every deadline. The switch of a run that has not begun is not thrown
(`fresh`), and the clock does not leave the range of the times that can be written (`fits`). -/
theorem isolations_agree_iff (g : Gate) (runs : Nat) (context : ContextId) (config : Config)
    (unit : Script) (m : Machine) (valid : config.validate = .ok ()) (idle : m.thread = .initial)
    (fresh : .ofRun m.world.pool.runs.length ∉ m.world.revoked)
    (fits : config.deadline m.world.clock / nanosPerSecond < Wire.epochSeconds)
    (hunit : unit.StaysInside (config.mayAllocate m))
    (hcatalog : g.catalog.StaysInside (config.mayAllocate m)) :
    ∃ onThread w inProcess v,
      (launchAt (runs + 1) g context (config.isolated .thread) unit m).finish =
        .ok (onThread, w) ∧
      (launchAt (runs + 1) g context (config.isolated .process) unit m).finish =
        .ok (inProcess, v) ∧
      (onThread.result.Agrees inProcess.result ↔
        ∀ v, onThread.result.value = some v →
          v.nesting ≤ Response.valueLevels ∧ v.reread? = some v) := by
  have alike := courses_alike runs context idle fresh hunit hcatalog
  let run := ThreadRun.next m.world context (config.isolated .thread)
  let worker := workerCourse runs g context (config.isolated .process) unit m
  have accepted : (config.isolated .process).validate = .ok () := valid
  rcases alike.race (config.deadline m.world.clock)
      (fun x w =>
        .ended (Return.mk (x.result.outcome ⟨w.clock - run.start⟩) m.thread x.late) (run.closed w))
      (fun due next w =>
        .ended (Return.mk (timedOut run.config run.config.timeout) m.thread
          (some (run.rest due next))) (run.abandoned w))
      (fun due hdue w v hwv => hwv.reach hdue) with
    ⟨r, s, w, v, result, twins, host, child⟩ | ⟨due, next, w, due', v, next', host, child⟩
  · have course := (launchAt_process accepted rfl).trans
      (runInProcess_eq (ofCourse_of_ended child))
    obtain ⟨found, -, inProcess⟩ := Course.finish_later _ _ _ _
    refine ⟨_, _, _, _, (congrArg Course.finish (launchAt_thread valid)).trans host,
      (congrArg Course.finish course).trans inProcess, ?_⟩
    have writable : ∀ d ∈ v.log.records, d.Writable := fun d hd =>
      Record.writable_of_dated (twins.dated d hd).1 (twins.dated d hd).2 fits
    rw [← result]
    exact ProcessEnd.outcome_agrees_iff writable
  · have asleep : ProcessEnd.ofCourse (config.deadline m.world.clock) worker =
        (⟨.timedOut, "", config.deadline m.world.clock⟩, v.entries) := by
      rw [ProcessEnd.ofCourse, child]
    have course := (launchAt_process accepted rfl).trans (runInProcess_eq asleep)
    obtain ⟨found, -, inProcess⟩ := Course.finish_later _ _ _ _
    refine ⟨_, _, _, _, (congrArg Course.finish (launchAt_thread valid)).trans host,
      (congrArg Course.finish course).trans inProcess, ?_⟩
    exact ⟨fun _ _ none => absurd none.symm (Option.some_ne_none _), fun _ => ⟨rfl, rfl, rfl⟩⟩

/-! ## Units on which the two agree, and one on which they do not -/

/-- A gate that knows no symbols enters no bodies. -/
theorem bareGate_body? (callee : Value) : (bareGate.catalog.route callee).body? = none := by
  cases callee with
  | method receiver name =>
    have unregistered : bareGate.catalog.classOf? receiver = none := by cases receiver <;> rfl
    rw [Catalog.route, Catalog.routeMethod, unregistered]
    cases Catalog.primitiveOf? receiver name <;> rfl
  | _ => rfl

theorem bareGate_staysInside (may : Nat → Prop) : bareGate.catalog.StaysInside may := by
  intro callee body hbody
  rw [bareGate_body?] at hbody
  cases hbody

theorem finish_on_thread (v : Value) :
    ∃ r w, (launchAt 1 bareGate 0 (Config.default.isolated .thread) (.finish (.ok v))
        .initial).finish = .ok (r, w) ∧
      r.result.success = true ∧ r.result.value = some v :=
  ⟨_, _, rfl, rfl, rfl⟩

theorem workerCourse_finish (v : Value) :
    ∃ r w, (workerCourse 0 bareGate 0 (Config.default.isolated .process) (.finish (.ok v))
        .initial).goOn (fun due _ => Config.default.deadline 0 ≤ due) = .ended r w ∧
      r.result = .returned (.ok v) :=
  ⟨_, _, rfl, rfl⟩

/-- Cuts a path by a call and keeps the answer in a value of several layers, or tries to call what is
not there and ends with its fault. -/
def cutter : Bool → Script
  | true => .call (.method (.str "a/b") "split") [.str "/"] fun
    | .ok answer => .finish (.ok (.tuple [answer, .map [("whole", .list [.str "a/b", .unit])]]))
    | .error f => .finish (.error f)
  | false => .call (.function "cut") [.str "a/b"] .finish

theorem cutter_staysInside (may : Nat → Prop) (works : Bool) : (cutter works).StaysInside may := by
  cases works with
  | false => exact fun _ => trivial
  | true =>
    intro answer
    cases answer <;> trivial

/-- What the unit returns, if its call is answered. -/
def cutPath : Value :=
  .tuple [.list [.str "a", .str "b"], .map [("whole", .list [.str "a/b", .unit])]]

theorem cutter_on_thread (works : Bool) :
    ∃ r w, (launchAt 1 bareGate 0 (Config.default.isolated .thread) (cutter works)
        .initial).finish = .ok (r, w) ∧
      r.result.value = if works then some cutPath else none := by
  cases works <;> exact ⟨_, _, rfl, rfl⟩

/-- A unit that returns an answer of its gate within another value, and one that ends with a denial:
in both kinds of isolation they come to the same. -/
theorem isolations_agree_on_cuts :
    Config.default.validate = .ok () ∧ Machine.initial.thread = .initial ∧
    Revocation.ofRun 0 ∉ World.initial.revoked ∧
    Config.default.deadline 0 / nanosPerSecond < Wire.epochSeconds ∧
    ∀ works, (cutter works).StaysInside (Config.default.mayAllocate .initial) ∧
      ∃ onThread w inProcess v,
        (launchAt 1 bareGate 0 (Config.default.isolated .thread) (cutter works)
          .initial).finish = .ok (onThread, w) ∧
        (launchAt 1 bareGate 0 (Config.default.isolated .process) (cutter works)
          .initial).finish = .ok (inProcess, v) ∧
        onThread.result.value = (if works then some cutPath else none) ∧
        onThread.result.Agrees inProcess.result := by
  have valid : Config.default.validate = .ok () := rfl
  have fresh : Revocation.ofRun 0 ∉ World.initial.revoked := by decide
  have fits : Config.default.deadline 0 / nanosPerSecond < Wire.epochSeconds := by decide
  refine ⟨valid, rfl, fresh, fits, fun works => ⟨cutter_staysInside _ works, ?_⟩⟩
  obtain ⟨onThread, w, inProcess, v, thread, process, agrees⟩ :=
    isolations_agree_iff bareGate 0 0 Config.default (cutter works) .initial valid rfl fresh fits
      (cutter_staysInside _ works) (bareGate_staysInside _)
  obtain ⟨r, x, same, value⟩ := cutter_on_thread works
  rw [thread] at same
  cases same
  refine ⟨_, _, _, _, thread, process, value, agrees.mpr fun u hu => ?_⟩
  rw [value] at hu
  cases works with
  | false => cases hu
  | true =>
    cases hu
    exact ⟨by decide, rfl⟩

/-- Positive infinity. -/
def Binary64.infinity : Binary64 := .ofMagnitude false infiniteMagnitude

/-- A unit that returns an infinity succeeds on a thread and fails in a process. -/
theorem isolations_differ_on_infinity :
    ¬ ∀ (g : Gate) (runs : Nat) (context : ContextId) (config : Config) (unit : Script)
        (m : Machine), config.validate = .ok () → m.thread = .initial →
      .ofRun m.world.pool.runs.length ∉ m.world.revoked →
      config.deadline m.world.clock / nanosPerSecond < Wire.epochSeconds →
      unit.StaysInside (config.mayAllocate m) → g.catalog.StaysInside (config.mayAllocate m) →
      ∀ onThread w inProcess v,
        (launchAt (runs + 1) g context (config.isolated .thread) unit m).finish =
          .ok (onThread, w) →
        (launchAt (runs + 1) g context (config.isolated .process) unit m).finish =
          .ok (inProcess, v) →
        onThread.result.Agrees inProcess.result := by
  intro agreeing
  obtain ⟨r, w, ended, result⟩ := workerCourse_finish (.float .infinity)
  obtain ⟨onThread, x, thread, success, -⟩ := finish_on_thread (.float .infinity)
  have unread : ¬ (r.result.Readable ∧ ∀ d ∈ w.log.records, d.Writable) := by
    rw [result]
    rintro ⟨⟨-, numbers⟩, -⟩
    exact absurd (numbers .infinity (by simp [Value.floats])) (by decide)
  obtain ⟨message, failed⟩ := ProcessEnd.outcome_ofEnding_unread r.result w
    (Config.default.isolated .process) ⟨w.clock - 0⟩ unread
  have accepted : (Config.default.isolated .process).validate = .ok () := rfl
  have course := (launchAt_process accepted rfl).trans
    (runInProcess_eq (ofCourse_of_ended (m := .initial) ended))
  obtain ⟨found, -, inProcess⟩ := Course.finish_later _ _ _ _
  have agrees := agreeing bareGate 0 0 Config.default (.finish (.ok (.float .infinity))) .initial rfl
    rfl (by decide) (by decide) trivial (bareGate_staysInside _) _ _ _ _ thread
    ((congrArg Course.finish course).trans inProcess)
  have failure := (success.symm.trans agrees.success).trans (congrArg (·.1.success) failed)
  cases failure

end CapabilityGate
