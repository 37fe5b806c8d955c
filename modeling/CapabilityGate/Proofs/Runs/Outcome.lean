import CapabilityGate.Proofs.Runs.Causes
import CapabilityGate.Proofs.Runs.Start

/-!
# Outcomes and their causes

An outcome is put together in many places: where a thread is waited for, where the response of a
process is read, where there is only the signal that killed it, and where nothing could be started.
Each of them gives an outcome that is well formed and tells its cause (`Outcome.Classified`).

The places come first, one lemma for each; `ProcessEnd.Shows.classified` puts those of a process
together. What happened to a unit is read off its course: a course *may become* another after some
of its waits (`Course.MayBecome`), and `Course.Explains` finds the causes in what it may become.
`outcomes_tell_their_cause` joins the two.
-/
namespace CapabilityGate

/-! ## The places where an outcome is put together -/

section Places

variable {cause : Cause} {elapsed : Duration}

theorem Outcome.failed_classified {kind : FailureKind} (message : String)
    (fails : cause.FailsWith kind none) : (failed kind message elapsed).Classified cause :=
  fails.classified fun _ none => absurd none.symm (Option.some_ne_none _)

theorem Outcome.ofResult_ok_classified {v u : Value} (home : v = u ∨ u.reread? = some v) :
    (ofResult (.ok v) elapsed).Classified (.ended (.returned (.ok u))) where
  success_iff := by simp [ofResult]
  value_iff := by simp [ofResult]
  value x same := by
    cases same
    exact ⟨u, rfl, home⟩
  sourced e f none := absurd none.symm (Option.some_ne_none e)
  unsourced e none := absurd none.symm (Option.some_ne_none e)
  failure e none := absurd none.symm (Option.some_ne_none e)

theorem Outcome.ofResult_error_classified {f : Fault}
    (fails : cause.FailsWith (.ofFault f) (some f)) :
    (ofResult (.error f) elapsed).Classified cause := by
  refine fails.classified fun source same => ?_
  cases same
  exact f.says_message

/-- Where a thread is waited for. -/
theorem Ending.outcome_classified (ending : Ending) :
    (ending.outcome elapsed).Classified (.ended ending) := by
  cases ending with
  | returned result =>
    cases result with
    | ok v => exact Outcome.ofResult_ok_classified (.inl rfl)
    | error f => exact Outcome.ofResult_error_classified (.fault f.hasKind_ofFault)
  | panicked payload => exact Outcome.failed_classified _ (.panic payload)

theorem timedOut_classified (config : Config) : (timedOut config elapsed).Classified .deadline :=
  Outcome.failed_classified _ .deadline

theorem host_classified (message : String) :
    (Outcome.failed .internal message elapsed).Classified .host :=
  Outcome.failed_classified _ .host

/-- Where there is only a signal. -/
theorem killedBy_classified (config : Config) (signal : Nat) (silent : Bool) :
    (killedBy config signal silent elapsed).Classified (.signal signal silent) := by
  unfold killedBy
  by_cases time : signal = Signal.time
  · rw [if_pos time, time]
    exact Outcome.failed_classified _ (.signal (.time silent))
  · rw [if_neg time]
    by_cases memory : meansMemory signal silent
    · rw [if_pos memory]
      exact Outcome.failed_classified _ (.signal (Signal.means_memory memory))
    · rw [if_neg memory]
      exact Outcome.failed_classified _ (.signal (Signal.means_internal time memory))

end Places

/-! ## Ends of a process -/

/-- Where the response of a process is read: it tells the ending that it was made of, except for what
the text does to a value. -/
theorem Response.outcome_ofEnding_classified {ending : Ending} {records : List Record} {r : Response}
    (read : read? (ofEnding ending records).write = some r) (elapsed : Duration) :
    (r.outcome elapsed).Classified (.ended ending) := by
  rw [read?_write] at read
  split at read
  · obtain ⟨result, reread, rfl⟩ := Option.map_eq_some_iff.mp read
    cases ending with
    | returned answer =>
      cases answer with
      | ok u =>
        obtain ⟨-, v, home, rfl⟩ := rereadResult?_ok_iff.mp reread
        exact Outcome.ofResult_ok_classified (.inr home)
      | error f =>
        cases reread
        exact Outcome.ofResult_error_classified (.fault f.hasKind_ofFault)
    | panicked payload => exact Outcome.failed_classified _ (.panic payload)
  · cases read

/-- The response of a worker that has not begun because of a fault. -/
def Response.ofFault (f : Fault) : Response := ⟨.error f, none, []⟩

theorem Response.read?_ofFault (f : Fault) : read? (ofFault f).write = some (ofFault f) := by
  have writable : ∀ d ∈ (ofFault f).violations, d.Writable := fun _ none =>
    absurd none List.not_mem_nil
  rw [read?_write, if_pos writable]
  rfl

theorem Response.read?_empty : read? "" = none := rfl

/-- **`p.Shows cause`** — the ways in which a worker process can end before the eyes of its caller.
A text that can be read is one that a worker has written. -/
inductive ProcessEnd.Shows : ProcessEnd → Cause → Prop
  | answered {status : Nat} {ending : Ending} {records : List Record} {time : Time} {r : Response}
      (read : Response.read? (Response.ofEnding ending records).write = some r) :
      Shows ⟨.exited status, (Response.ofEnding ending records).write, time⟩ (.ended ending)
  | refused {status : Nat} {limit : SystemLimit} {reason : String} {time : Time} :
      Shows ⟨.exited status, (Response.ofFault (limit.fault reason)).write, time⟩
        (.limit limit reason)
  | silent {status : Nat} {time : Time} : Shows ⟨.exited status, "", time⟩ .host
  | garbled {status : Nat} {text : String} {time : Time} (unread : Response.read? text = none) :
      Shows ⟨.exited status, text, time⟩ .host
  | killed {signal : Nat} {text : String} {time : Time} :
      Shows ⟨.killed signal, text, time⟩ (.signal signal text.isEmpty)
  | overdue {text : String} {time : Time} : Shows ⟨.timedOut, text, time⟩ .deadline

namespace ProcessEnd

/-- A response that is read decides the outcome. -/
theorem outcome_exited_of_read {status : Nat} {text : String} {time : Time} {r : Response}
    (read : Response.read? text = some r) (config : Config) (elapsed : Duration) :
    (outcome ⟨.exited status, text, time⟩ config elapsed).1 = r.outcome elapsed := by
  have full : text.isEmpty = false := by
    rw [Bool.eq_false_iff, ne_eq, String.isEmpty_iff]
    rintro rfl
    rw [Response.read?_empty] at read
    cases read
  simp only [outcome, full, read, Bool.false_eq_true, if_false]

/-- **The outcome of every end of a process tells its cause.** -/
theorem Shows.classified {p : ProcessEnd} {cause : Cause} (shows : p.Shows cause) (config : Config)
    (elapsed : Duration) : (p.outcome config elapsed).1.Classified cause := by
  cases shows with
  | answered read =>
    rw [outcome_exited_of_read read]
    exact Response.outcome_ofEnding_classified read elapsed
  | @refused status limit reason time =>
    rw [outcome_exited_of_read (Response.read?_ofFault (limit.fault reason))]
    exact Outcome.ofResult_error_classified (.limit limit reason)
  | silent => exact host_classified _
  | @garbled status text time unread =>
    by_cases empty : text.isEmpty
    · simp only [outcome, empty, if_true]
      exact host_classified _
    · simp only [outcome, empty, unread]
      exact host_classified _
  | killed => exact killedBy_classified config _ _
  | overdue => exact timedOut_classified config

end ProcessEnd

/-! ## What a course may become -/

/-- **`c.MayBecome d`** — after some of its waits a course goes on as `d`, for some worlds that it
finds when it wakes. -/
inductive Course.MayBecome {α : Type} : Course α → Course α → Prop
  | now (c : Course α) : MayBecome c c
  | later {due : Time} {w v : World} {next : World → Course α} {d : Course α}
      (rest : MayBecome (next v) d) : MayBecome (asleep due w next) d

namespace Course

variable {α β : Type}

/-- A course whose second part ends at once goes on as its first part does. -/
theorem MayBecome.of_bind {c : Course α} {f : α → World → Course β} {d : Course β}
    (atOnce : ∀ a v, ∃ b w, f a v = ended b w) (h : (c.bind f).MayBecome d) :
    ∃ e, c.MayBecome e ∧ d = e.bind f := by
  induction c with
  | ended a v =>
    obtain ⟨b, w, same⟩ := atOnce a v
    change (f a v).MayBecome d at h
    rw [same] at h
    cases h
    exact ⟨_, .now _, same.symm⟩
  | died death v =>
    cases h
    exact ⟨_, .now _, rfl⟩
  | asleep due w next ih =>
    cases h with
    | now => exact ⟨_, .now _, rfl⟩
    | later rest =>
      obtain ⟨e, become, same⟩ := ih _ rest
      exact ⟨e, .later become, same⟩

/-- A race that ends was won, or the course was asleep at the deadline. -/
theorem MayBecome.of_race {deadline : Time} {inTime : α → World → Course β}
    {expired : Time → (World → Course α) → World → Course β} {c : Course α} {b : β} {w : World}
    (h : (c.race deadline inTime expired).MayBecome (ended b w)) :
    (∃ a v, c.MayBecome (ended a v) ∧ (inTime a v).MayBecome (ended b w)) ∨
      ∃ due u next v, c.MayBecome (asleep due u next) ∧ deadline ≤ due ∧
        (expired due next v).MayBecome (ended b w) := by
  induction c with
  | ended a v => exact .inl ⟨a, v, .now _, h⟩
  | died death v => cases h
  | asleep due u next ih =>
    unfold race at h
    split at h
    · cases h with
      | later rest =>
        rcases ih _ rest with ⟨a, v, become, won⟩ | ⟨due, u, next, v, become, late, lost⟩
        · exact .inl ⟨a, v, .later become, won⟩
        · exact .inr ⟨due, u, next, v, .later become, late, lost⟩
    · rename_i late
      cases h with
      | later rest => exact .inr ⟨due, u, next, _, .now _, Nat.le_of_not_lt late, rest⟩

theorem MayBecome.of_later {due : Time} {u w : World} {next : World → Course α} {a : α}
    (h : (Course.later due u next).MayBecome (ended a w)) :
    ∃ v, (next v).MayBecome (ended a w) := by
  unfold Course.later at h
  split at h
  · exact ⟨u, h⟩
  · cases h with
    | later rest => exact ⟨_, rest⟩

theorem exists_mayBecome_later (due : Time) (w : World) (next : World → Course α) :
    ∃ v, ∀ d, (next v).MayBecome d → (Course.later due w next).MayBecome d := by
  unfold Course.later
  split
  · exact ⟨w, fun _ become => become⟩
  · exact ⟨w.reach due, fun _ rest => .later rest⟩

/-- Following a course is one way for it to go on. -/
theorem mayBecome_goOn (enough : Time → World → Bool) (c : Course α) :
    c.MayBecome (c.goOn enough) := by
  induction c with
  | ended a w => exact .now _
  | died death w => exact .now _
  | asleep due w next ih =>
    unfold goOn
    split
    · exact .now _
    · exact .later (ih _)

/-- A course that is followed is left asleep only where there is enough. -/
theorem enough_of_goOn {enough : Time → World → Bool} {c : Course α} {due : Time} {w : World}
    {next : World → Course α} (h : c.goOn enough = asleep due w next) : enough due w = true := by
  induction c with
  | ended a v => cases h
  | died death v => cases h
  | asleep due' w' next' ih =>
    unfold goOn at h
    split at h
    · rename_i stop
      cases h
      exact stop
    · exact ih _ h

end Course

/-! ## What becomes of a unit -/

/-- The cause that a death gives. A process that is stopped for good is still there at its
deadline. -/
def Death.cause : Death → Cause
  | signal number => .signal number true
  | exit _ => .host
  | stopped => .deadline

/-- The cause that an ending gives. In a process nothing is known of an ending that cannot be
read. -/
def Ending.cause (ending : Ending) (records : List Record) : Isolation → Cause
  | .thread => .ended ending
  | .process =>
    if (Response.read? (Response.ofEnding ending records).write).isSome then .ended ending else .host

/-- A fault is always read, if there are no records. -/
theorem Ending.cause_fault (f : Fault) (isolation : Isolation) :
    cause (.returned (.error f)) [] isolation = .ended (.returned (.error f)) := by
  cases isolation with
  | thread => rfl
  | process =>
    have read : (Response.read? (Response.ofFault f).write).isSome := by
      rw [Response.read?_ofFault]
      rfl
    exact if_pos read

namespace Course

/-- **`c.cause? isolation deadline`** — the cause that a unit gives whose course stands here when its
run is over. When a process dies, the callers on its threads die with it. -/
def cause? (isolation : Isolation) (deadline : Time) : Course (Return Ending) → Option Cause
  | ended r w => some (r.result.cause w.log.records isolation)
  | died death _ => if isolation = .process then some death.cause else none
  | asleep due _ _ => if deadline ≤ due then some .deadline else none

/-- **`c.Explains isolation deadline cause`** — the unit whose course is `c` may give this cause. -/
def Explains (isolation : Isolation) (deadline : Time) (c : Course (Return Ending))
    (cause : Cause) : Prop :=
  ∃ d, c.MayBecome d ∧ d.cause? isolation deadline = some cause

end Course

/-- The activation around a unit gives no cause of its own. -/
theorem Course.Explains.of_activated {x : Activity Ending} {context : ContextId}
    {revocation : Option Revocation} {m : Machine} {isolation : Isolation} {deadline : Time}
    {cause : Cause} (h : (x.activated context revocation m).Explains isolation deadline cause) :
    (x (m.activate context revocation)).Explains isolation deadline cause := by
  obtain ⟨d, become, gives⟩ := h
  obtain ⟨e, first, rfl⟩ := become.of_bind fun _ _ => ⟨_, _, rfl⟩
  refine ⟨e, first, ?_⟩
  cases e with
  | ended r w => exact gives
  | died death w => exact gives
  | asleep due w next => exact gives

/-- What the caller of a process sees is explained by what became of its unit. -/
theorem ProcessEnd.ofCourse_shows (deadline : Time) (c : Course (Return Ending)) :
    ∃ cause, c.Explains .process deadline cause ∧ (ofCourse deadline c).1.Shows cause := by
  have become := c.mayBecome_goOn fun due _ => deadline ≤ due
  unfold ofCourse
  cases stands : c.goOn fun due _ => deadline ≤ due with
  | ended r w =>
    rw [stands] at become
    refine ⟨_, ⟨_, become, rfl⟩, ?_⟩
    unfold Ending.cause
    cases read : Response.read? (Response.ofEnding r.result w.log.records).write with
    | some response => exact .answered read
    | none => exact .garbled read
  | died death w =>
    rw [stands] at become
    refine ⟨_, ⟨_, become, rfl⟩, ?_⟩
    cases death with
    | signal number => exact .killed
    | exit status => exact .silent
    | stopped => exact .overdue
  | asleep due w next =>
    rw [stands] at become
    have late := of_decide_eq_true (Course.enough_of_goOn stands)
    exact ⟨_, ⟨_, become, if_pos late⟩, .overdue⟩

/-! ## Outcomes of runs -/

section Run

variable {runs : Nat} {g : Gate} {context : ContextId} {config : Config} {unit : Script}
  {m : Machine} {x : Return Outcome} {w : World}

/-- On a thread the outcome tells how the unit ended, or that it did not end in time. -/
theorem runOnThread_classified (isolated : config.isolation = .thread)
    (ends : (runOnThread (unitEvaluation runs) g context config unit m).MayBecome (.ended x w)) :
    ∃ cause, (unitEvaluation runs (g.forRun m) unit (m.unitStart context config)).Explains
        .thread (config.deadline m.world.clock) cause ∧ x.result.Classified cause := by
  unfold Machine.unitStart
  rw [isolated]
  rcases ends.of_race with ⟨r, v, become, won⟩ | ⟨due, u, next, v, become, late, lost⟩
  · cases won
    exact ⟨_, .of_activated ⟨_, become, rfl⟩, r.result.outcome_classified⟩
  · cases lost
    exact ⟨_, .of_activated ⟨_, become, if_pos late⟩, timedOut_classified config⟩

/-- In a process the outcome tells what the caller has seen of the worker. -/
theorem runInProcess_classified (isolated : config.isolation = .process)
    (ends : (runInProcess (unitEvaluation runs) g context config unit m).MayBecome (.ended x w)) :
    ∃ cause, (unitEvaluation runs (g.forRun m) unit (m.unitStart context config)).Explains
        .process (config.deadline m.world.clock) cause ∧ x.result.Classified cause := by
  obtain ⟨cause, explains, shows⟩ := ProcessEnd.ofCourse_shows (config.deadline m.world.clock)
    (workerCourse runs g context config unit m)
  rw [runInProcess_eq rfl] at ends
  obtain ⟨v, ended⟩ := ends.of_later
  cases ended
  refine ⟨cause, ?_, shows.classified config _⟩
  unfold Machine.unitStart
  rw [isolated]
  exact explains.of_activated

/-- A run in a process always comes to an outcome. -/
theorem exists_outcome_of_process (valid : config.validate = .ok ())
    (isolated : config.isolation = .process) :
    ∃ x w, (launchAt (runs + 1) g context config unit m).MayBecome (.ended x w) := by
  rw [launchAt_process valid isolated, runInProcess_eq rfl]
  obtain ⟨v, become⟩ := Course.exists_mayBecome_later _ _ _
  exact ⟨_, _, become _ (.now _)⟩

end Run

/-- **Every outcome is well formed and is classified by its cause.** A run with settings that are
accepted has an outcome that tells what became of its unit, in both kinds of isolation and at every
depth of nesting. So has every end of a worker process, whichever signal killed it, whatever text it
has left, and also if it was refused a limit. Settings that are refused evaluate nothing, whatever
that would mean, and leave the world, its log and the thread as they are. And what the host itself
cannot do has no source. -/
theorem outcomes_tell_their_cause (runs : Nat) (g : Gate) (context : ContextId) (config : Config)
    (unit : Script) (m : Machine) :
    (config.validate = .ok () → ∀ x w,
      (launchAt (runs + 1) g context config unit m).MayBecome (.ended x w) →
      ∃ cause, (unitEvaluation runs (g.forRun m) unit (m.unitStart context config)).Explains
          config.isolation (config.deadline m.world.clock) cause ∧ x.result.Classified cause) ∧
    (∀ (p : ProcessEnd) (cause : Cause) (elapsed : Duration), p.Shows cause →
      (p.outcome config elapsed).1.Classified cause) ∧
    (∀ e, config.validate = .error e → (refusedSettings e).Classified .host ∧
      ∀ evaluate : Gate → Script → Activity Ending,
        run evaluate g context config unit m = .ended ⟨refusedSettings e, m.thread, none⟩ m.world) ∧
    ∀ (message : String) (elapsed : Duration),
      (Outcome.failed .internal message elapsed).Classified .host := by
  refine ⟨fun valid x w ends => ?_, fun p cause elapsed shows => shows.classified config elapsed,
    fun e refused => ⟨host_classified e.message, fun evaluate => ?_⟩, fun message _ =>
      host_classified message⟩
  · cases isolation : config.isolation with
    | thread =>
      rw [launchAt_on_thread valid isolation] at ends
      exact runOnThread_classified isolation ends
    | process =>
      rw [launchAt_process valid isolation] at ends
      exact runInProcess_classified isolation ends
  · rw [run, refused]
    rfl

/-! ## A unit that ends with a fault -/

/-- Ends with a fault at once. -/
def quitter : Script := .finish (.error (.failed "no"))

/-- What a unit gives that ends with a fault at once. -/
theorem quitter_cause {runs : Nat} {g : Gate} {m : Machine} {isolation : Isolation}
    {deadline : Time} {cause : Cause}
    (h : (unitEvaluation runs g quitter m).Explains isolation deadline cause) :
    cause = Ending.cause (.returned (.error (.failed "no"))) m.world.log.records isolation := by
  obtain ⟨d, become, gives⟩ := h
  have ends : ∃ late, unitEvaluation runs g quitter m =
      .ended ⟨.returned (.error (.failed "no")), m.thread, late⟩ m.world := ⟨_, rfl⟩
  obtain ⟨late, ends⟩ := ends
  rw [ends] at become
  cases become
  cases gives
  rfl

/-- A unit that ends with a fault, in both kinds of isolation; a process that was killed after it
had answered; and settings that leave no time. -/
theorem outcomes_tell_faults_and_kills :
    (∃ x w, (launchAt 1 bareGate 0 Config.default quitter .initial).MayBecome (.ended x w) ∧
      x.result.Classified (.ended (.returned (.error (.failed "no")))) ∧
      x.result.failure = some ⟨.failed, "no", some (.failed "no")⟩) ∧
    (∃ x w, (launchAt 1 bareGate 0 forked quitter .initial).MayBecome (.ended x w) ∧
      x.result.Classified (.ended (.returned (.error (.failed "no")))) ∧
      x.result.failure = some ⟨.failed, "no", some (.failed "no")⟩) ∧
    (ProcessEnd.Shows ⟨.killed 9, "answer", 7⟩ (.signal 9 false) ∧
      (ProcessEnd.outcome ⟨.killed 9, "answer", 7⟩ forked .zero).1.Classified (.signal 9 false) ∧
      ∃ message, (ProcessEnd.outcome ⟨.killed 9, "answer", 7⟩ forked .zero).1.failure =
        some ⟨.memory, message, none⟩) ∧
    ({ forked with timeout := .zero }.validate = .error .noTime ∧
      (refusedSettings .noTime).Classified .host ∧
      run (unitEvaluation 0) bareGate 0 { forked with timeout := .zero } quitter .initial =
        .ended ⟨refusedSettings .noTime, .initial, none⟩ .initial) := by
  obtain ⟨onThread, -, -, -⟩ :=
    outcomes_tell_their_cause 0 bareGate 0 Config.default quitter .initial
  obtain ⟨inProcess, shown, -, -⟩ :=
    outcomes_tell_their_cause 0 bareGate 0 forked quitter .initial
  obtain ⟨-, -, refused, -⟩ :=
    outcomes_tell_their_cause 0 bareGate 0 { forked with timeout := .zero } quitter .initial
  have told : ∀ {o : Outcome}, o.Classified (.ended (.returned (.error (.failed "no")))) →
      o.failure = some ⟨.failed, "no", some (.failed "no")⟩ := by
    intro o classified
    obtain ⟨message, failure, explained⟩ := classified.failure_eq (.fault (.failed "no"))
    cases explained _ rfl
    exact failure
  refine ⟨?_, ?_, ?_, rfl, (refused .noTime rfl).1, (refused .noTime rfl).2 _⟩
  · obtain ⟨x, w, ends⟩ : ∃ x w,
        launchAt 1 bareGate 0 Config.default quitter .initial = .ended x w := ⟨_, _, rfl⟩
    have become : (launchAt 1 bareGate 0 Config.default quitter .initial).MayBecome
        (.ended x w) := ends ▸ .now _
    obtain ⟨cause, explains, classified⟩ := onThread rfl x w become
    obtain rfl := quitter_cause explains
    exact ⟨x, w, become, classified, told classified⟩
  · obtain ⟨x, w, become⟩ :=
      @exists_outcome_of_process 0 bareGate 0 forked quitter .initial rfl rfl
    obtain ⟨cause, explains, classified⟩ := inProcess rfl x w become
    have same : cause = .ended (.returned (.error (.failed "no"))) := by
      rw [quitter_cause explains]
      exact Ending.cause_fault _ _
    rw [same] at classified
    exact ⟨x, w, become, classified, told classified⟩
  · have classified := shown ⟨.killed 9, "answer", 7⟩ (.signal 9 false) .zero .killed
    obtain ⟨message, failure, -⟩ := classified.failure_eq (.signal (.kill false))
    exact ⟨.killed, classified, message, failure⟩

end CapabilityGate
