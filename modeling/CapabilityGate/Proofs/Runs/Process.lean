import CapabilityGate.Proofs.Audit.Chain
import CapabilityGate.Proofs.Evaluation.Stretch
import CapabilityGate.Proofs.Wire.Response
import CapabilityGate.Sandbox.Run

/-!
# What a worker process sends home

A run in a process is decided by one text. Where the unit of the run has ended by itself, the text
holds its ending together with the denials that were logged in the process, and the caller reads all
of it or nothing (`ProcessEnd.outcome_ofEnding`). So whether the denials arrive depends on the value
that the unit chose to return: `process_denials_arrive_iff` says on what about it.
-/
namespace CapabilityGate

/-! ## Endings that can be read -/

/-- **`ending.Readable`** — the caller of a process can read how its unit ended: always after a
fault or a panic, and after a value that is not nested too deep and whose numbers are all
finite. -/
def Ending.Readable : Ending → Prop
  | .returned (.ok v) => v.nesting ≤ Response.valueLevels ∧ ∀ x ∈ v.floats, x.isFinite
  | .returned (.error _) => True
  | .panicked _ => True

instance (ending : Ending) : Decidable ending.Readable :=
  match ending with
  | .returned (.ok v) =>
    inferInstanceAs (Decidable (v.nesting ≤ _ ∧ ∀ x ∈ v.floats, x.isFinite))
  | .returned (.error _) => isTrue trivial
  | .panicked _ => isTrue trivial

theorem Ending.readable_iff (ending : Ending) (violations : List Record) :
    ending.Readable ↔
      (Response.rereadResult? (Response.ofEnding ending violations).result).isSome := by
  cases ending with
  | returned result =>
    cases result with
    | ok v =>
      have numbers := v.reread?_isSome_iff
      simp only [Readable, Response.ofEnding, Response.rereadResult?, ← numbers]
      by_cases shallow : v.nesting ≤ Response.valueLevels <;> simp [shallow]
    | error f => simp [Readable, Response.ofEnding, Response.rereadResult?]
  | panicked message => simp [Readable, Response.ofEnding, Response.rereadResult?]

namespace ProcessEnd

variable (ending : Ending) (w : World) (config : Config) (elapsed : Duration)

theorem outcome_ofEnding_eq :
    (ofEnding ending w).outcome config elapsed =
      if (Response.ofEnding ending w.log.records).write.isEmpty then (silentExit 0 elapsed, [])
      else
        match Response.read? (Response.ofEnding ending w.log.records).write with
        | some r => (r.outcome elapsed, r.violations)
        | none => (unreadableResponse elapsed, []) :=
  rfl

theorem violations_ofEnding :
    (Response.ofEnding ending w.log.records).violations = w.log.records := by
  cases ending <;> rfl

/-- A response that can be read decides the run, and its denials come with it. -/
theorem outcome_ofEnding {result : Except Fault Value}
    (read : Response.rereadResult? (Response.ofEnding ending w.log.records).result = some result)
    (writable : ∀ d ∈ w.log.records, d.Writable) :
    (ofEnding ending w).outcome config elapsed =
      (Response.outcome { Response.ofEnding ending w.log.records with result } elapsed,
        w.log.records) := by
  have written : (Response.ofEnding ending w.log.records).write.isEmpty = false := by
    rw [Bool.eq_false_iff, ne_eq, String.isEmpty_iff, Response.write_eq_empty_iff,
      violations_ofEnding]
    rintro ⟨d, hd, negative⟩
    exact absurd (writable d hd).1 (by omega)
  have response := Response.read?_write (Response.ofEnding ending w.log.records)
  rw [violations_ofEnding, if_pos writable, read, Option.map_some] at response
  rw [outcome_ofEnding_eq, written, response]
  rfl

/-- Without a response that can be read the run fails, and no denials come with it. -/
theorem outcome_ofEnding_unread
    (unread : ¬ (ending.Readable ∧ ∀ d ∈ w.log.records, d.Writable)) :
    ∃ message, (ofEnding ending w).outcome config elapsed =
      (.failed .internal message elapsed, []) := by
  have response : Response.read? (Response.ofEnding ending w.log.records).write = none := by
    rw [Response.read?_write, violations_ofEnding]
    by_cases writable : ∀ d ∈ w.log.records, d.Writable
    · have lost : ¬ ending.Readable := fun h => unread ⟨h, writable⟩
      rw [ending.readable_iff w.log.records, Option.not_isSome_iff_eq_none] at lost
      rw [if_pos writable, lost]
      rfl
    · rw [if_neg writable]
  rw [outcome_ofEnding_eq, response]
  split
  · exact ⟨_, rfl⟩
  · exact ⟨_, rfl⟩

theorem denials_ofEnding :
    ((ofEnding ending w).outcome config elapsed).2 =
      if ending.Readable ∧ ∀ d ∈ w.log.records, d.Writable then w.log.records else [] := by
  split
  · rename_i arrives
    obtain ⟨result, read⟩ := Option.isSome_iff_exists.mp
      ((ending.readable_iff w.log.records).mp arrives.1)
    rw [outcome_ofEnding ending w config elapsed read arrives.2]
  · rename_i unread
    obtain ⟨message, failed⟩ := outcome_ofEnding_unread ending w config elapsed unread
    rw [failed]

/-- The denials that come with the end of a process are none, or all that were logged in it. -/
theorem violations_ofCourse (deadline : Time) (config : Config) (elapsed : Duration)
    (c : Course (Return Ending)) :
    ((ofCourse deadline c).1.outcome config elapsed).2 = [] ∨
      ((ofCourse deadline c).1.outcome config elapsed).2 =
        (c.goOn fun due _ => deadline ≤ due).world.log.records := by
  unfold ofCourse
  cases c.goOn fun due _ => deadline ≤ due with
  | ended r w =>
    show ((ofEnding r.result w).outcome config elapsed).2 = [] ∨
      ((ofEnding r.result w).outcome config elapsed).2 = w.log.records
    rw [denials_ofEnding]
    split
    · exact .inr rfl
    · exact .inl rfl
  | died death w =>
    refine .inl ?_
    cases death <;> rfl
  | asleep due w next => exact .inl rfl

end ProcessEnd

/-! ## Runs whose unit ended by itself -/

/-- How a unit is evaluated when so many more runs may be nested in it. -/
def unitEvaluation (runs : Nat) : Gate → Script → Activity Ending := fun g unit =>
  unit.evaluate (callAt (launchAt runs) maxDepth) (launchAt runs) g

/-- When a run that begins now has to be over. -/
def Config.deadline (config : Config) (start : Time) : Time := start + config.timeout.nanos

/-- The end of the points in time that a host can name: it counts seconds below 2^63. -/
def Time.limit : Nat := UInt64.size / 2 * 1000000000

/-- While the clock has not come halfway, every deadline can be named. -/
theorem Config.deadline_lt_limit (config : Config) {start : Nat} (early : 2 * start < Time.limit) :
    config.deadline start < Time.limit := by
  have within : config.timeout.nanos ≤ Duration.longest.nanos := config.timeout.within
  have room : Time.limit = 2 * Duration.longest.nanos := rfl
  show start + config.timeout.nanos < Time.limit
  omega

/-- **`workerCourse runs g context config unit m`** — what goes on in the worker process of a run,
which begins with a copy of the world. -/
def workerCourse (runs : Nat) (g : Gate) (context : ContextId) (config : Config) (unit : Script)
    (m : Machine) : Course (Return Ending) :=
  let held := heldForRun m.world context config
  let child : Machine :=
    ⟨(held.fork config.memory).addBudget (config.deadline m.world.clock), m.thread⟩
  (unitEvaluation runs ⟨g.catalog, some m.world.budgets.length⟩ unit).activated
    (runContext m.world context config) none child

section Run

variable {runs : Nat} {g : Gate} {context : ContextId} {config : Config} {unit : Script}
  {m : Machine}

theorem launchAt_on_thread (valid : config.validate = .ok ())
    (isolated : config.isolation = .thread) :
    launchAt (runs + 1) g context config unit m =
      runOnThread (unitEvaluation runs) g context config unit m := by
  rw [launchAt, run, valid, isolated]
  rfl

theorem launchAt_process (valid : config.validate = .ok ())
    (isolated : config.isolation = .process) :
    launchAt (runs + 1) g context config unit m =
      runInProcess (unitEvaluation runs) g context config unit m := by
  rw [launchAt, run, valid, isolated]
  rfl

/-- The caller waits for the end of the process and then makes something of it. -/
theorem runInProcess_eq {processEnd : ProcessEnd} {entries : List Entry}
    (ending : ProcessEnd.ofCourse (config.deadline m.world.clock)
      (workerCourse runs g context config unit m) = (processEnd, entries)) :
    runInProcess (unitEvaluation runs) g context config unit m =
      .later processEnd.time (heldForRun m.world context config) fun v =>
        .ended
          ⟨(processEnd.outcome config ⟨processEnd.time - m.world.clock⟩).1, m.thread, none⟩
          (afterProcess (runContext m.world context config) context
            (processEnd.outcome config ⟨processEnd.time - m.world.clock⟩).2 entries v) := by
  unfold workerCourse Config.deadline at ending
  unfold runInProcess
  dsimp only at ending ⊢
  rw [ending]

/-- A worker that comes to an end before the deadline ends by itself. -/
theorem ofCourse_of_ended {r : Return Ending} {w : World}
    (ended : (workerCourse runs g context config unit m).goOn
      (fun due _ => config.deadline m.world.clock ≤ due) = .ended r w) :
    ProcessEnd.ofCourse (config.deadline m.world.clock)
        (workerCourse runs g context config unit m) =
      (ProcessEnd.ofEnding r.result w, w.entries) := by
  rw [ProcessEnd.ofCourse, ended]

/-- Followed with nobody else about, a course that waits once finds the world it has left. -/
theorem Course.finish_later {α : Type} (due : Time) (w : World) (a : α) (f : World → World) :
    ∃ v, v.log = w.log ∧ (later due w fun v => ended a (f v)).finish = .ok (a, f v) := by
  unfold later
  split
  · exact ⟨w, rfl, rfl⟩
  · exact ⟨w.reach due, rfl, rfl⟩

/-- The caller finds some world when the worker ends, does with the denials what it does with the
ending, and adds nothing of its own. -/
theorem launchAt_of_ended (valid : config.validate = .ok ())
    (isolated : config.isolation = .process) {r : Return Ending} {w : World}
    (ended : (workerCourse runs g context config unit m).goOn
      (fun due _ => config.deadline m.world.clock ≤ due) = .ended r w) :
    ∃ (outcome : Outcome) (finished : World → World),
      launchAt (runs + 1) g context config unit m =
        .later w.clock (heldForRun m.world context config)
          (fun v => .ended ⟨outcome, m.thread, none⟩ (finished v)) ∧
      ∀ v : World, (finished v).log = v.log.extend
        (if r.result.Readable ∧ ∀ d ∈ w.log.records, d.Writable then w.log.records else []) := by
  have denials := ProcessEnd.denials_ofEnding r.result w config ⟨w.clock - m.world.clock⟩
  refine ⟨_, _, (launchAt_process valid isolated).trans
    (runInProcess_eq (ofCourse_of_ended ended)), fun v => ?_⟩
  rw [← denials]
  rfl

/-- **What a forked worker has logged arrives exactly if its ending can be read.** Take any run in a
process whose unit ends by itself within the limits. With nobody else about, the log afterwards is
the one from before with all denials of the worker, each once, in order and unchanged, or with none
of them; with others about, the same goes for the log of whatever world `v` the caller finds when
the worker ends. All arrive exactly if there are none, or if the ending can be read and the time of
each can be written: so a fault or a panic hides nothing, and a returned value hides everything if
it is nested too deep or has an infinity in it or what is no number. -/
theorem process_denials_arrive_iff (valid : config.validate = .ok ())
    (isolated : config.isolation = .process) {r : Return Ending} {w : World}
    (ended : (workerCourse runs g context config unit m).goOn
      (fun due _ => config.deadline m.world.clock ≤ due) = .ended r w) :
    ∃ (outcome : Outcome) (finished : World → World),
      launchAt (runs + 1) g context config unit m =
        .later w.clock (heldForRun m.world context config)
          (fun v => .ended ⟨outcome, m.thread, none⟩ (finished v)) ∧
      (∃ v, v.log = m.world.log ∧
        (launchAt (runs + 1) g context config unit m).finish =
          .ok (⟨outcome, m.thread, none⟩, finished v)) ∧
      ∀ v : World,
        ((finished v).log.records = v.log.records ++ w.log.records ∨
          (finished v).log.records = v.log.records) ∧
        ((finished v).log.records = v.log.records ++ w.log.records ↔
          w.log.records = [] ∨ (r.result.Readable ∧ ∀ d ∈ w.log.records, d.Writable)) := by
  obtain ⟨outcome, finished, course, log⟩ := launchAt_of_ended valid isolated ended
  obtain ⟨alone, same, finish⟩ := Course.finish_later w.clock (heldForRun m.world context config)
    (Return.mk outcome m.thread none) finished
  refine ⟨outcome, finished, course, ⟨alone, same, by rw [course, finish]⟩, fun v => ?_⟩
  rw [log v, Log.extend_records]
  split
  · rename_i arrives
    exact ⟨.inl rfl, fun _ => .inr arrives, fun _ => rfl⟩
  · rename_i lost
    rw [List.append_nil]
    refine ⟨.inr rfl, fun same => .inl ?_, fun h => ?_⟩
    · exact List.self_eq_append_right.mp same
    · rcases h with none | arrives
      · rw [none, List.append_nil]
      · exact absurd arrives lost

end Run

/-! ## A unit that asks for what is refused -/

/-- A gate that knows no symbols. -/
def bareGate : Gate := ⟨⟨"main", [], []⟩, none⟩

/-- The default settings, in a process. -/
def forked : Config := { Config.default with isolation := .process }

/-- What is denied to the unit. -/
def blockedRequest : Record := ⟨⟨"network.http"⟩, some "https://blocked", "net.get", 0⟩

/-- Asks for a resource that no context grants, and ends with the given result all the same. -/
def prober (result : Result) : Script :=
  .require ⟨"network.http"⟩ "https://blocked" "net.get" fun _ => .finish result

theorem evaluate_prober {runs : Nat} {g : Gate} {m : Machine} (result : Result)
    (live : m.world.isExhausted g.budget = false)
    (none : ((m.afterCheck g.budget).visible.bind fun l => l.token? ⟨"network.http"⟩ true) = none) :
    unitEvaluation runs g (prober result) m =
      .ended ⟨.returned result, m.thread, .none⟩
        ((m.afterCheck g.budget).deny ⟨"network.http"⟩ (some "https://blocked")
          "net.get").world := by
  have answer : g.coveringToken ⟨"network.http"⟩ "https://blocked" "net.get" m =
      (.error (.resourceDenied ⟨"network.http"⟩ "https://blocked"),
        (m.afterCheck g.budget).deny ⟨"network.http"⟩ (some "https://blocked") "net.get") := by
    unfold Gate.coveringToken
    dsimp only
    rw [live, none]
    rfl
  rw [unitEvaluation, prober, Script.evaluate]
  dsimp only
  rw [answer]
  rfl

theorem workerCourse_prober (result : Result) :
    ∃ r w, (workerCourse 0 bareGate 0 forked (prober result) .initial).goOn
        (fun due _ => forked.deadline Machine.initial.world.clock ≤ due) = .ended r w ∧
      r.result = .returned result ∧ w.log.records = [blockedRequest] := by
  have lineage : ∀ s : Store, s.contexts = [] → s.lineageOf 0 = [] := by
    intro s none
    simp [Store.lineageOf, Store.find?, none]
  unfold workerCourse Activity.activated
  dsimp only
  rw [evaluate_prober result rfl ?_]
  · exact ⟨_, _, rfl, rfl, rfl⟩
  · show Option.bind (some (Store.lineageOf _ 0)) _ = _
    rw [lineage _ rfl]
    rfl

/-- A unit that returns nothing special cannot hide what was denied to it. -/
theorem denial_arrives_with_unit :
    ∃ r w, forked.validate = .ok () ∧ forked.isolation = .process ∧
      (workerCourse 0 bareGate 0 forked (prober (.ok .unit)) .initial).goOn
        (fun due _ => forked.deadline Machine.initial.world.clock ≤ due) = .ended r w ∧
      ∃ (outcome : Outcome) (finished : World → World),
        launchAt 1 bareGate 0 forked (prober (.ok .unit)) .initial =
          .later w.clock (heldForRun World.initial 0 forked)
            (fun v => .ended ⟨outcome, .initial, none⟩ (finished v)) ∧
        ∀ v : World, (finished v).log.records = v.log.records ++ [blockedRequest] := by
  obtain ⟨r, w, ended, result, records⟩ := workerCourse_prober (.ok .unit)
  have valid : forked.validate = .ok () := rfl
  obtain ⟨outcome, finished, course, -, log⟩ := process_denials_arrive_iff valid rfl ended
  refine ⟨r, w, valid, rfl, ended, outcome, finished, course, fun v => ?_⟩
  rw [records] at log
  refine (log v).2.mpr (.inr ⟨?_, by decide⟩)
  rw [result]
  exact ⟨by decide, by simp [Value.floats]⟩

/-- A unit that returns what is no number hides what was denied to it. -/
theorem denial_hidden_by_nan :
    ¬ ∀ (runs : Nat) (g : Gate) (context : ContextId) (config : Config) (unit : Script)
        (m : Machine) (r : Return Ending) (w : World),
      config.validate = .ok () → config.isolation = .process →
      (workerCourse runs g context config unit m).goOn
        (fun due _ => config.deadline m.world.clock ≤ due) = .ended r w →
      ∀ x after, (launchAt (runs + 1) g context config unit m).finish = .ok (x, after) →
        after.log.records = m.world.log.records ++ w.log.records := by
  intro arrive
  obtain ⟨r, w, ended, result, records⟩ := workerCourse_prober (.ok (.float .nan))
  have valid : forked.validate = .ok () := rfl
  obtain ⟨outcome, finished, course, log⟩ := launchAt_of_ended valid rfl ended
  obtain ⟨v, same, finish⟩ := Course.finish_later w.clock (heldForRun World.initial 0 forked)
    (Return.mk outcome Thread.initial none) finished
  have unread : ¬ r.result.Readable := by
    rw [result]
    rintro ⟨-, numbers⟩
    exact absurd (numbers .nan (by simp [Value.floats])) (by decide)
  have all := arrive 0 bareGate 0 forked _ .initial r w valid rfl ended _ _
    ((congrArg Course.finish course).trans finish)
  rw [log v, if_neg fun h => unread h.1, records, same] at all
  cases all

end CapabilityGate
