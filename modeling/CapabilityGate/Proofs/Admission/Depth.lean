import CapabilityGate.Proofs.Evaluation.Progress

/-!
# Depth bounds every recursion

A thread counts the calls in progress on it, and no body is entered once there are `maxDepth`. Every
body is a finite tree of requests, so within a call only nested calls could go on for ever, and
these are at most so deep. The order in which a thread comes to its end is therefore that of the
room that is left for calls and, at the same depth, of the part of the script that is still to come:
`Progress.terminates_script`. What waits in the frames does so at the depth at which it went in, so
a thread with any frames comes to its end frame by frame: `Progress.framesTerminate`.
-/
namespace CapabilityGate

namespace Progress

variable {around : Surroundings} {p q : Progress} {t : Thread} {w v : World}

/-! ## The count of calls -/

/-- **`p.Counts t`** — a thread that began as `t` has counted the calls in progress, and they are no
more than there was room for. -/
structure Counts (t : Thread) (p : Progress) : Prop where
  depth : p.thread.depth = t.depth + p.callsInProgress
  bounded : p.callsInProgress ≤ maxDepth - t.depth

theorem counts_start (g : Gate) (s : Script) (t : Thread) : (start g s t).Counts t :=
  ⟨rfl, Nat.zero_le _⟩

theorem Counts.through (counts : p.Counts t) (h : Gate) : (p.through h).Counts t := by
  obtain ⟨focus, frames, thread⟩ := p
  cases focus with
  | script g s => exact ⟨counts.depth, counts.bounded⟩
  | ending e => exact counts

/-- A turn keeps the count: only a call that is admitted adds to it, and only its end takes from it.
-/
theorem Counts.leads (counts : p.Counts t) (leads : (p.turn w).Leads q v) : q.Counts t := by
  obtain ⟨focus, frames, thread⟩ := p
  obtain ⟨depth, bounded⟩ := counts
  change thread.depth = t.depth + callsWithin frames at depth
  change callsWithin frames ≤ maxDepth - t.depth at bounded
  cases focus with
  | script g s =>
    cases Script.turn_shape leads with
    | goesOn | ends | activates => exact ⟨depth, bounded⟩
    | enters _ decided =>
      have room : thread.depth < maxDepth := Gate.depth_of_enter decided
      constructor
      · show thread.depth + 1 = t.depth + (callsWithin frames + 1)
        omega
      · show callsWithin frames + 1 ≤ maxDepth - t.depth
        omega
  | ending e =>
    cases Ending.turn_shape leads with
    | answers | panics | restores => exact ⟨depth, bounded⟩
    | @leaves _ frames =>
      change thread.depth = t.depth + (callsWithin frames + 1) at depth
      change callsWithin frames + 1 ≤ maxDepth - t.depth at bounded
      constructor
      · show thread.depth - 1 = t.depth + callsWithin frames
        omega
      · show callsWithin frames ≤ maxDepth - t.depth
        omega

theorem Counts.reaches (counts : p.Counts t) (reaches : Reaches around (p, w) (q, v)) :
    q.Counts t := by
  refine reaches.keeps (P := fun x => x.1.Counts t) (fun x y moves counts => ?_) counts
  cases moves with
  | own leads _ => exact counts.leads leads
  | @through h _ _ _ _ _ _ leads _ => exact (counts.through h).leads leads

/-! ## Every thread comes to its end -/

/-- **`p.Terminates around`** — there is no endless run of turns from here on, whatever world the
thread finds. -/
def Terminates (around : Surroundings) (p : Progress) : Prop :=
  ∀ w, Acc (fun y x => Moves around x y) (p, w)

theorem terminates_of_script {s : Script} {frames : List Frame}
    (next : ∀ g w q v, (s.turn g frames ⟨w, t⟩).Leads q v → q.Terminates around) (g : Gate) :
    Terminates around ⟨.script g s, frames, t⟩ := by
  refine fun w => ⟨_, fun y moves => ?_⟩
  cases moves with
  | own leads _ => exact next g w _ _ leads _
  | @through h _ _ _ _ _ _ leads _ => exact next h w _ _ leads _

theorem terminates_of_ending {e : Ending} {frames : List Frame}
    (next : ∀ w q v, (e.turn ⟨w, t⟩ frames).Leads q v → q.Terminates around) :
    Terminates around ⟨.ending e, frames, t⟩ := by
  refine fun w => ⟨_, fun y moves => ?_⟩
  cases moves with
  | own leads _ => exact next w _ _ leads _
  | through _ leads _ => exact next w _ _ leads _

/-- **`FramesTerminate around frames d`** — when something has ended at depth `d`, what waits in the
frames comes to an end as well. -/
def FramesTerminate (around : Surroundings) (frames : List Frame) (d : Nat) : Prop :=
  ∀ e t, t.depth = d → Terminates around ⟨.ending e, frames, t⟩

variable {frames : List Frame} {d : Nat}

theorem FramesTerminate.call (h : FramesTerminate around frames (d - 1)) :
    FramesTerminate around (.call :: frames) d := by
  intro e t depth
  refine terminates_of_ending fun w q v leads => ?_
  cases Ending.turn_shape leads with
  | leaves => exact h e _ (by rw [← depth])

theorem FramesTerminate.activation (h : FramesTerminate around frames d) (context : ContextId)
    (previous : Register) : FramesTerminate around (.activation context previous :: frames) d := by
  intro e t depth
  refine terminates_of_ending fun w q v leads => ?_
  cases Ending.turn_shape leads with
  | restores => exact h e _ depth

/-- A script that waits goes on at the depth at which it waited. -/
theorem FramesTerminate.awaits (h : FramesTerminate around frames d) {g : Gate}
    {next : Result → Script}
    (answered : ∀ result t, t.depth = d → Terminates around ⟨.script g (next result), frames, t⟩) :
    FramesTerminate around (.awaits g next :: frames) d := by
  intro e t depth
  refine terminates_of_ending fun w q v leads => ?_
  cases Ending.turn_shape leads with
  | answers result => exact answered result t depth
  | panics message => exact h _ t depth

/-- At one depth: a script comes to its end if the bodies do that it can enter. -/
theorem terminates_script_of_deeper
    (deeper : d < maxDepth → ∀ {frames : List Frame} {t : Thread},
      FramesTerminate around frames (d + 1) → t.depth = d + 1 →
      ∀ g s, Terminates around ⟨.script g s, frames, t⟩)
    (h : FramesTerminate around frames d) (depth : t.depth = d) (g : Gate) (s : Script) :
    Terminates around ⟨.script g s, frames, t⟩ := by
  -- On the parts of the script; what comes after a call or an activation is one of them.
  induction s using Script.wellFounded_part.induction generalizing frames g t with
  | _ s ih =>
    refine terminates_of_script (fun g w q v leads => ?_) g
    cases Script.turn_shape leads with
    | goesOn part => exact ih _ part h depth g
    | ends e => exact h e t depth
    | @enters callee receiver args next body called decided =>
      subst called
      have room : t.depth < maxDepth := Gate.depth_of_enter decided
      have inside : FramesTerminate around (.awaits g next :: frames) d :=
        h.awaits fun result t depth => ih _ (.call result) h depth g
      apply deeper (depth ▸ room) (FramesTerminate.call inside)
      show t.depth + 1 = d + 1
      rw [depth]
    | @activates context body next within =>
      subst within
      have inside : FramesTerminate around (.awaits g next :: frames) d :=
        h.awaits fun result t depth => ih _ (.within result) h depth g
      refine ih body .body (inside.activation context t.register) ?_ g
      exact depth

/-- **A script comes to its end** if what waits in the frames does. -/
theorem terminates_script {room : Nat} (enough : maxDepth ≤ d + room)
    (h : FramesTerminate around frames d) (depth : t.depth = d) (g : Gate) (s : Script) :
    Terminates around ⟨.script g s, frames, t⟩ := by
  induction room generalizing d frames g s t with
  | zero =>
    have full : ¬ d < maxDepth := Nat.not_lt_of_le enough
    exact terminates_script_of_deeper (fun room => absurd room full) h depth g s
  | succ room ih =>
    refine terminates_script_of_deeper (fun _ frames t h depth g s => ?_) h depth g s
    exact ih (by omega) h depth g s

/-- Whatever waits in the frames comes to an end. -/
theorem framesTerminate (around : Surroundings) (frames : List Frame) (d : Nat) :
    FramesTerminate around frames d := by
  induction frames generalizing d with
  | nil =>
    intro e t depth
    refine terminates_of_ending fun w q v leads => ?_
    cases Ending.turn_shape leads
  | cons f frames ih =>
    cases f with
    | awaits g next =>
      refine (ih d).awaits fun result t depth => ?_
      exact terminates_script (Nat.le_add_left maxDepth d) (ih d) depth g (next result)
    | call => exact (ih (d - 1)).call
    | activation context previous => exact (ih d).activation context previous

/-- **Every thread comes to its end**, wherever it stands. -/
theorem terminates (around : Surroundings) (p : Progress) : p.Terminates around := by
  obtain ⟨focus, frames, t⟩ := p
  have frames_end := framesTerminate around frames t.depth
  cases focus with
  | script g s => exact terminates_script (Nat.le_add_left maxDepth t.depth) frames_end rfl g s
  | ending e => exact frames_end e t rfl

end Progress

/-! ## The limit -/

/-- A call at the greatest depth is refused on the spot. -/
theorem Gate.decision_of_full {g : Gate} {callee : Value} {m : Machine} (args : List Value)
    (callable : callee.isCallable = true) (live : m.world.isExhausted g.budget = false)
    (full : maxDepth ≤ m.thread.depth) : g.decision callee args m = .refuse depthFault := by
  unfold decision
  rw [live, callable]
  simp [full]

/-- **Depth bounds every recursion.** Follow a thread turn by turn through the evaluation of any
script, with whatever others do to the world between its turns and through any other gates that
bodies have at hand. Besides the calls that were in progress when it began, no more are ever in
progress on it than make 256 together, and the depth of the thread is their number.

A call of a function or of a method under a live budget, with 256 calls in progress, is answered
with the fault about the depth: no body is evaluated, the world is as it was, and the script goes on
with the answer.

There is no endless run of turns: from every state of every thread, in every world, the turns come
to an end, with answers to runs taken as they come, and a thread that has not ended and whose
process has not died has a next turn. What the evaluator says of a call or a script is what the
thread does, turn by turn. -/
theorem depth_bounds_recursion (runs : Nat) (around : Surroundings) :
    (∀ g s t w q v, Progress.Reaches around (.start g s t, w) (q, v) →
      q.thread.depth = t.depth + q.callsInProgress ∧ q.callsInProgress ≤ 256 - t.depth) ∧
    (∀ (g : Gate) (callee : Value) (args : List Value) (m : Machine), callee.isCallable = true →
      m.world.isExhausted g.budget = false → 256 ≤ m.thread.depth →
      let answer : Result := .error (.failed "maximum call depth (256) exceeded")
      (∀ run, g.checkedCall run callee args m =
        .ended ⟨.returned answer, m.thread, none⟩ m.world) ∧
      ∀ next frames,
        (Progress.mk (.script g (.call callee args next)) frames m.thread).turn m.world =
          .goes ⟨.script g (next answer), frames, m.thread⟩ m.world) ∧
    (WellFounded fun y x => Progress.Moves around x y) ∧
    (∀ (p : Progress) w, (∃ q v, (p.turn w).Leads q v) ∨ (∃ e t v, p.turn w = .ended e t v) ∨
      ∃ death v, p.turn w = .died death v) ∧
    (∀ (p : Progress) w, p.course runs w = (p.turn w).course runs) ∧
    ∀ (g : Gate) callee args (m : Machine),
      g.call callee args m =
        (Progress.start g (.call callee args .finish) m.thread).course nestedRuns m.world := by
  refine ⟨?_, ?_, ?_, Progress.turn_leads, Progress.course_turn runs, ?_⟩
  · intro g s t w q v reaches
    have counts := (Progress.counts_start g s t).reaches reaches
    exact ⟨counts.depth, counts.bounded⟩
  · intro g callee args m callable live full answer
    have decided := Gate.decision_of_full args callable live full
    have checked := Machine.afterCheck_of_live live
    refine ⟨fun run => ?_, fun next frames => ?_⟩
    · rw [Gate.checkedCall_eq_carryOut, decided, checked]
      rfl
    · show (g.decision callee args m).turn g frames callee args next (m.afterCheck g.budget) = _
      rw [decided, checked]
      rfl
  · exact ⟨fun x => x.1.terminates around x.2⟩
  · exact fun g callee args m => (Script.activity_call_finish g callee args m).symm

end CapabilityGate
