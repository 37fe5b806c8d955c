import CapabilityGate.Proofs.Evaluation.Evolution
import CapabilityGate.Proofs.Evaluation.Telling

/-!
# The log of denials as a trail

`Event.denials` says which records an event calls for: those of a call that is refused for
capabilities, one for each that is missing; that of a question for a token that is refused under a
live budget; and, when a process comes home with its denials, those of all that happened in it.
`Logged` is the judgement that a stretch adds to the log the records of its events, in order, and
nothing else. Every story of an evaluation obeys it (`Script.narrate_logs`), so the log is the trail
of what was denied, however calls and runs are nested and whatever becomes of the faults:
`audit_trail_exact`.
-/
namespace CapabilityGate

/-! ## The records that events call for -/

mutual

/-- The records that an event calls for. -/
def Event.denials : Event → List Record
  | call g m callee args =>
    if m.world.isExhausted g.budget || maxDepth ≤ m.thread.depth then []
    else
      match (g.catalog.listing? callee).bind Listing.requirement with
      | none => []
      | some r =>
        denialRecords (r.lackedBy m.visible) (r.resource args) callee.symbol m.world.clock
  | require g m capability resource operation =>
    let nearest := m.visible.bind fun l => l.token? capability true
    if m.world.isExhausted g.budget || nearest.any (·.covers (some resource)) then []
    else [⟨capability, some resource, operation, m.world.clock⟩]
  | process told arrived => if arrived then Event.denialsOf told else []

/-- The records that events call for, in the order of the events. -/
def Event.denialsOf : List Event → List Record
  | [] => []
  | e :: told => e.denials ++ Event.denialsOf told

end

theorem Event.denialsOf_append (told later : List Event) :
    denialsOf (told ++ later) = denialsOf told ++ denialsOf later := by
  induction told with
  | nil => rfl
  | cons e told ih => rw [List.cons_append, denialsOf, denialsOf, ih, List.append_assoc]

theorem Event.denialsOf_singleton (e : Event) : denialsOf [e] = e.denials := by
  rw [denialsOf, denialsOf, List.append_nil]

/-- What is lacking of a requirement that is met is nothing. -/
theorem Requirement.lackedBy_of_met {r : Requirement} {visible : Option Lineage}
    (met : r.MetBy visible) : r.lackedBy visible = [] := by
  rw [← r.missing_eq_lackedBy]
  exact (r.missing_eq_nil_iff visible).2 met

theorem Event.denials_call_of_not_lacking (g : Gate) (m : Machine) (callee : Value)
    (args : List Value)
    (h : ∀ missing held resource, g.decision callee args m ≠ .lacking missing held resource) :
    (call g m callee args).denials = [] := by
  rw [denials]
  split
  · rfl
  · rename_i admitted
    simp only [Bool.or_eq_true, decide_eq_true_eq, not_or, Bool.not_eq_true, Nat.not_le] at admitted
    split
    · rfl
    · rename_i r requirement
      by_cases met : r.MetBy m.visible
      · rw [Requirement.lackedBy_of_met met]
        rfl
      · have lacking := (g.decision_eq_lacking_iff callee args m).2
          ⟨admitted.1, admitted.2, r, requirement, met, rfl, rfl, rfl⟩
        exact absurd lacking (h _ _ _)

/-- A call has records exactly if it is refused for capabilities. -/
theorem Event.denials_call (g : Gate) (m : Machine) (callee : Value) (args : List Value) :
    (call g m callee args).denials =
      match g.decision callee args m with
      | .lacking missing _ resource => denialRecords missing resource callee.symbol m.world.clock
      | _ => [] := by
  cases decision : g.decision callee args m with
  | lacking missing held resource =>
    obtain ⟨live, room, r, requirement, -, rfl, -, rfl⟩ :=
      (g.decision_eq_lacking_iff callee args m).1 decision
    simp [denials, live, Nat.not_le_of_lt room, requirement]
  | refuse | enter | primitive =>
    refine denials_call_of_not_lacking g m callee args fun missing held resource lacking => ?_
    rw [decision] at lacking
    cases lacking

/-- A question for a token has a record exactly if the answer is that the resource is denied. -/
theorem Event.denials_require (g : Gate) (m : Machine) (capability : Capability)
    (resource operation : String) :
    (require g m capability resource operation).denials =
      match (g.coveringToken capability resource operation m).1 with
      | .error (.resourceDenied c r) => [⟨c, some r, operation, m.world.clock⟩]
      | _ => [] := by
  rw [denials]
  rcases g.coveringToken_cases m capability resource operation with
    ⟨exhausted, answer⟩ | ⟨live, token, nearest, covers, answer⟩ | ⟨live, uncovered, answer⟩
  · simp [exhausted, answer]
  · simp [live, nearest, covers, answer]
  · cases nearest : m.visible.bind fun l => l.token? capability true with
    | none => simp [live, answer]
    | some token => simp [live, uncovered token nearest, answer]

/-- Where no context is active every resource is denied. -/
example :
    (Event.require bareGate .initial ⟨"network.http"⟩ "https://blocked" "net.get").denials =
      [blockedRequest] := by decide

/-- **`Logged w told w'`** — the log of `w'` is that of `w` with the records of what is told. -/
def Logged (w : World) (told : List Event) (w' : World) : Prop :=
  w'.log = w.log.extend (Event.denialsOf told)

instance : Accrues Logged where
  nil w := rfl
  append {u v w told later} first second := by
    show w.log = u.log.extend (Event.denialsOf (told ++ later))
    rw [Event.denialsOf_append, Log.extend_append, ← first]
    exact second

/-- A change before a story that does not touch the log. -/
theorem Story.Obeys.unlogged {α : Type} {s : Story α} {Q : α → Prop} {u w : World}
    (h : s.Obeys Logged Q w) (same : w.log = u.log) : s.Obeys Logged Q u :=
  h.after same

/-! ## Narratives that log what they tell -/

/-- **`x.Logs`** — wherever the narrative begins, each stretch logs what is told of it, those of the
workers that it leaves behind included. -/
def Narrative.Logs {α : Type} (x : Narrative α) : Prop :=
  ∀ m, (x m).Obeys Logged (fun a => LateStory.AllObey Logged a.late) m.world

namespace Narrative

variable {α β : Type} {x : Narrative α}

theorem logs_pure (a : α) : (pure a).Logs :=
  fun _ => ⟨rfl, LateStory.allObey_none⟩

theorem Logs.bind {f : α → Narrative β} (hx : x.Logs) (hf : ∀ a, (f a).Logs) : (x.bind f).Logs := by
  intro m
  refine Story.Obeys.bind (hx m) fun r v hr => ?_
  have next := hf r.result ⟨v, r.thread⟩
  cases late : r.late with
  | none => exact next
  | some l =>
    refine (Story.Obeys.beside next (late ▸ hr)).bind fun a w ha => ?_
    exact ⟨rfl, ha.1.both ha.2⟩

theorem Logs.andThen {x : Narrative Ending} {f : Result → Narrative Ending} (hx : x.Logs)
    (hf : ∀ r, (f r).Logs) : (x.andThen f).Logs := by
  refine hx.bind fun ending => ?_
  cases ending with
  | returned result => exact hf result
  | panicked message => exact logs_pure _

theorem Logs.activated (hx : x.Logs) (context : ContextId) (revocation : Option Revocation) :
    (x.activated context revocation).Logs := by
  intro m
  have inside : (x (m.activate context revocation)).Obeys Logged
      (fun a => LateStory.AllObey Logged a.late) m.world := (hx _).unlogged rfl
  exact inside.bind fun r v hr => ⟨rfl, hr⟩

theorem Logs.counted (hx : x.Logs) : x.counted.Logs :=
  fun m => (hx m.enter).bind fun _ _ hr => ⟨rfl, hr⟩

end Narrative

/-! ## Calls and questions -/

/-- A check of a budget does not touch the log. -/
theorem logged_afterCheck (m : Machine) (budget : Option BudgetId) :
    Logged m.world [] (m.afterCheck budget).world := by
  obtain ⟨budgets, eq⟩ := m.world.afterCheck_eq budget
  show (m.world.afterCheck budget).log = _
  rw [eq]
  rfl

theorem Gate.narrateCall_logs (g : Gate) {narrate : Script → Narrative Ending}
    (h : ∀ s, (narrate s).Logs) (callee : Value) (args : List Value) :
    (g.narrateCall narrate callee args).Logs := by
  intro m
  have silent := logged_afterCheck m g.budget
  unfold narrateCall
  have denials := Event.denials_call g m callee args
  rw [← Event.denialsOf_singleton] at denials
  generalize Event.call g m callee args = event at denials
  -- A refusal has logged its records when it ends; nothing else is logged before a body is entered.
  cases decision : g.decision callee args m with
  | lacking missing held resource =>
    rw [decision] at denials
    refine ⟨?_, LateStory.allObey_none⟩
    obtain ⟨budgets, eq⟩ := m.world.afterCheck_eq g.budget
    show ((m.world.afterCheck g.budget).log.extend (denialRecords missing resource callee.symbol
      (m.world.afterCheck g.budget).clock)) = m.world.log.extend (Event.denialsOf [event])
    rw [denials, eq]
  | enter receiver body =>
    rw [decision] at denials
    have entry : Logged m.world [event] (m.afterCheck g.budget).world := by
      rw [Logged, denials]
      exact silent
    have body : Narrative.Logs fun m => narrate (body receiver args) (m.noteEntry callee true) :=
      fun m => (h _ _).unlogged rfl
    exact (body.counted _).tell entry
  | refuse | primitive =>
    rw [decision] at denials
    refine ⟨?_, LateStory.allObey_none⟩
    show (m.world.afterCheck g.budget).log = m.world.log.extend (Event.denialsOf [event])
    rw [denials]
    exact silent

theorem Gate.coveringToken_logged (g : Gate) (m : Machine) (capability : Capability)
    (resource operation : String) :
    Logged m.world [.require g m capability resource operation]
      (g.coveringToken capability resource operation m).2.world := by
  rw [Logged, Event.denialsOf_singleton, Event.denials_require]
  rcases g.coveringToken_cases m capability resource operation with
    ⟨-, answer⟩ | ⟨-, token, -, -, answer⟩ | ⟨-, -, answer⟩
  · rw [answer]
    exact logged_afterCheck m g.budget
  · rw [answer]
    rfl
  · rw [answer]
    rfl

/-! ## Scripts -/

/-- All these launches log what they tell. -/
def LaunchStories.Log (launches : LaunchStories) : Prop :=
  ∀ g context config unit, (launches g context config unit).Logs

section Scripts

variable {calls : CallStories} {launches : LaunchStories}

theorem Script.narrate_logs (hlaunches : launches.Log) (g : Gate)
    (hcalls : ∀ callee args, (calls g callee args).Logs) (s : Script) :
    (s.narrate calls launches g).Logs := by
  -- On the tree of the script; what is no call, question or launch does not touch the log.
  induction s with
  | finish result => exact Narrative.logs_pure _
  | panic message => exact Narrative.logs_pure _
  | call callee args next ih => exact (hcalls callee args).andThen ih
  | require capability resource operation next ih =>
    exact fun m => (ih _ _).tell (g.coveringToken_logged m capability resource operation)
  | find name next ih => exact fun m => ih _ m
  | within context body next ihbody ih => exact (ihbody.activated context none).andThen ih
  | current next ih => exact fun m => ih _ m
  | revoke | report =>
    rename_i ih
    exact fun m => (ih _).unlogged rfl
  | cancel next ih =>
    intro m
    obtain ⟨budgets, eq⟩ := m.world.cancelHost_eq
    refine (ih _).unlogged ?_
    show m.world.cancelHost.log = _
    rw [eq]
  | sleep time next ih => exact fun m => Story.obeys_later fun v => ih ⟨v, m.thread⟩
  | launch context config unit next ihunit ih => exact (hlaunches g context config unit).bind ih
  | raise signal next ih =>
    intro m
    unfold narrate
    cases Signal.raise m.world.spent signal with
    | ok spent => exact (ih (m.change fun w => { w with spent })).unlogged rfl
    | error death => exact Accrues.nil m.world
  | exit status => exact fun m => Accrues.nil m.world
  | allocate bytes next ih =>
    intro m
    unfold narrate
    split
    · exact ih m
    · exact Accrues.nil m.world

theorem callStoryAt_logs (hlaunches : launches.Log) (room : Nat) (g : Gate) (callee : Value)
    (args : List Value) : (callStoryAt launches room g callee args).Logs := by
  -- On the number of calls that may still be nested in this one.
  induction room generalizing callee args with
  | zero => exact g.narrateCall_logs (fun _ => Narrative.logs_pure _) callee args
  | succ room ih => exact g.narrateCall_logs (fun s => s.narrate_logs hlaunches g ih) callee args

end Scripts

/-! ## Runs -/

section Runs

variable {narrate : Gate → Script → Narrative Ending} (h : ∀ g s, (narrate g s).Logs) (g : Gate)
  (context : ContextId) (config : Config) (unit : Script)

/-- A run on a thread writes nothing to the log itself. -/
theorem narrateOnThread_logs (h : ∀ g s, (narrate g s).Logs) :
    (narrateOnThread narrate g context config unit).Logs := by
  intro m
  let run := ThreadRun.next m.world context config
  have abandoned : ∀ w, (run.abandoned w).log = w.log := fun w => by
    obtain ⟨budgets, eq⟩ := (w.revoke run.switch).changeBudget_eq run.budget Budget.cancel
    show ((w.revoke run.switch).cancel run.budget).log = w.log
    rw [World.cancel, eq]
    rfl
  have worker := (h (g.forRun m) unit).activated run.effective (some run.switch)
    ⟨run.opened m.world, .initial⟩
  refine Story.Obeys.race (worker.unlogged rfl) (fun x w hx => ⟨rfl, hx⟩) fun due next w hnext => ?_
  refine ⟨abandoned w, LateStory.allObey_some.2 fun v => (hnext v).bind fun x w hx => ?_⟩
  exact (hx.storyOf (run.returned w)).unlogged rfl

theorem Story.world_courseBy {α β : Type} (s : Story α) (f : α → β) :
    (s.courseBy f).world = s.world := by
  cases s <;> rfl

/-- A process logs to a log of its own, which is empty at first. Its denials come home all together,
when it has ended, or not at all. -/
theorem narrateInProcess_logs (h : ∀ g s, (narrate g s).Logs) :
    (narrateInProcess narrate g context config unit).Logs := by
  intro m
  let deadline := config.deadline m.world.clock
  let worker := workerStory narrate g context config unit m
  let followed := worker.goOn fun due _ => deadline ≤ due
  let child := ((heldForRun m.world context config).fork config.memory).addBudget deadline
  have own : followed.world.log.records = Event.denialsOf followed.told := by
    have logs := (h (g.forRun m) unit).activated (runContext m.world context config) none
      ⟨child, m.thread⟩
    have first : Logged child followed.told followed.world :=
      (logs.goOn fun w t => rfl).first
    rw [first, Log.extend_records]
    rfl
  let violations := (workerOutcome config m.world.clock
    (ProcessEnd.ofCourse deadline (worker.courseBy Account.back)).1).2
  have arrived : violations = [] ∨ violations = Event.denialsOf followed.told := by
    rw [← own, ← Story.world_courseBy followed Account.back, Story.courseBy_goOn]
    exact ProcessEnd.violations_ofCourse deadline config _ _
  unfold narrateInProcess
  dsimp only
  refine Story.Obeys.unlogged (w := heldForRun m.world context config) ?_ rfl
  refine Story.obeys_later fun v => ⟨?_, LateStory.allObey_none⟩
  show v.log.extend violations =
    v.log.extend (Event.denialsOf [.process followed.told !violations.isEmpty])
  rw [Event.denialsOf_singleton, Event.denials]
  rcases arrived with none | all
  · rw [none]
    rfl
  · rw [← all]
    cases violations <;> rfl

theorem narrateRun_logs (h : ∀ g s, (narrate g s).Logs) :
    (narrateRun narrate g context config unit).Logs := by
  unfold narrateRun
  cases config.validate with
  | error e => exact Narrative.logs_pure _
  | ok _ =>
    cases config.isolation with
    | thread => exact narrateOnThread_logs g context config unit h
    | process => exact narrateInProcess_logs g context config unit h

end Runs

theorem launchStoryAt_logs (fuel : Nat) : (launchStoryAt fuel).Log := by
  -- On the number of runs that may be nested; a unit is told with launches of one less.
  induction fuel with
  | zero => exact fun g context config unit => Narrative.logs_pure _
  | succ fuel ih =>
    intro g context config unit
    refine narrateRun_logs g context config unit fun g s => ?_
    exact s.narrate_logs ih g (callStoryAt_logs ih maxDepth g)

/-! ## Whole evaluations -/

/-- **The log is exactly the trail of the denials.** Evaluate any script through a gate, with as many
runs and calls nested as may be. The story of the evaluation is the evaluation itself, with the calls
and the questions for tokens told in the order in which the gate hears of them. Each stretch of it
adds to the log the records of what is told, in that order, and nothing else, whatever world is found
after a wait; so do those of the workers that are left behind. With nobody else about, the log in the
end is the one from before with the records of everything told, whether the evaluation ends with a
value, a fault or a panic or the process dies.

The rules of `Event.denials` are in terms of what is asked; what the asker hears is said last. A call
has records exactly if it is refused for capabilities, one for each that is missing; a question for a
token has one exactly if the answer is that the resource is denied. -/
theorem log_is_trail_of_denials (g : Gate) (runs room : Nat) (s : Script) (m : Machine) :
    let story := s.narrate (callStoryAt (launchStoryAt runs) room) (launchStoryAt runs) g m
    let evaluation := s.evaluate (callAt (launchAt runs) room) (launchAt runs) g m
    story.courseBy Account.back = evaluation ∧
    evaluation.finish = (story.finish.2.map fun last => (last.1.back, last.2)) ∧
    story.Obeys Logged (fun a => LateStory.AllObey Logged a.late) m.world ∧
    (Story.lastWorld story.finish.2).log = m.world.log.extend (Event.denialsOf story.finish.1) ∧
    (∀ (h : Gate) (n : Machine) callee args,
      (Event.call h n callee args).denials =
        match h.decision callee args n with
        | .lacking missing _ resource => denialRecords missing resource callee.symbol n.world.clock
        | _ => []) ∧
    ∀ (h : Gate) (n : Machine) capability resource operation,
      (Event.require h n capability resource operation).denials =
        match (h.coveringToken capability resource operation n).1 with
        | .error (.resourceDenied c r) => [⟨c, some r, operation, n.world.clock⟩]
        | _ => [] := by
  intro story evaluation
  have tells : Narrative.Tells _ _ := s.narrate_tells (launchStoryAt_tells runs) g
    (callStoryAt_tells (launchStoryAt_tells runs) room g)
  have logs : Narrative.Logs _ := s.narrate_logs (launchStoryAt_logs runs) g
    (callStoryAt_logs (launchStoryAt_logs runs) room g)
  refine ⟨tells m, ?_, logs m, ?_, Event.denials_call, Event.denials_require⟩
  · show evaluation.finish = _
    rw [show evaluation = story.courseBy Account.back from (tells m).symm, Story.finish_courseBy]
  · exact (logs m).finish fun w t => rfl

end CapabilityGate
