import CapabilityGate.Proofs.Admission.Checkpoint
import CapabilityGate.Proofs.Evaluation.Evolution

/-!
# There is always room for a call

`callAt launches room` answers calls with at most `room` calls nested in them, so that the recursion
over bodies ends. The gate itself counts with the depth of the thread, and refuses at `maxDepth`. On
a thread at depth `d` a room of `maxDepth - d` never runs out, and more of it makes no difference:
`callAt_congr`. So the room can be forgotten: `callAt_maxDepth` says that a call is the checkpoint
with bodies that are evaluated in the same way as the call itself.
-/
namespace CapabilityGate

/-! ## What comes after a thread that is kept -/

section Congruence

variable {α β : Type} {R : World → World → Prop}

/-- A course goes on in the same way if it does so for the results that it can come to. -/
theorem Course.Obeys.bind_congr {Q : α → Prop} {c : Course α} {w : World}
    {f f' : α → World → Course β} (h : c.Obeys R Q w) (same : ∀ a v, Q a → f a v = f' a v) :
    c.bind f = c.bind f' := by
  induction c generalizing w with
  | ended a v => exact same a v h.2
  | died death v => rfl
  | asleep due v next ih =>
    show Course.asleep due v _ = Course.asleep due v _
    congr 1
    funext u
    exact ih u (h.2 u)

namespace Activity

variable {x y : Activity α} {m : Machine}

/-- After an activity that keeps its thread, only that thread matters. -/
theorem Obeys.bind_congr {f f' : α → Activity β} (hx : x.Obeys R) (first : x m = y m)
    (next : ∀ a v, f a ⟨v, m.thread⟩ = f' a ⟨v, m.thread⟩) : x.bind f m = y.bind f' m := by
  unfold Activity.bind
  rw [← first]
  refine Course.Obeys.bind_congr (hx m) fun r v kept => ?_
  rw [kept.thread, next]

theorem Obeys.andThen_congr {x y : Activity Ending} {f f' : Result → Activity Ending}
    (hx : x.Obeys R) (first : x m = y m)
    (next : ∀ a v, f a ⟨v, m.thread⟩ = f' a ⟨v, m.thread⟩) : x.andThen f m = y.andThen f' m := by
  refine hx.bind_congr first fun ending v => ?_
  cases ending with
  | returned result => exact next result v
  | panicked message => rfl

theorem activated_congr (context : ContextId) (revocation : Option Revocation)
    (same : x (m.activate context revocation) = y (m.activate context revocation)) :
    x.activated context revocation m = y.activated context revocation m := by
  unfold activated
  rw [same]

end Activity

end Congruence

/-! ## Calls that agree at a depth -/

variable {launches : Launches} {g : Gate} {callee : Value} {args : List Value} {m : Machine}

/-- No body is entered once `maxDepth` calls are in progress. -/
theorem Gate.depth_of_enter {receiver : Value} {body : Body}
    (enter : g.decision callee args m = .enter receiver body) : m.thread.depth < maxDepth := by
  unfold decision at enter
  split at enter
  · cases enter
  · split at enter
    · cases enter
    · rename_i within
      cases hc : callee.isCallable with
      | true =>
        rw [hc] at within
        simpa using within
      | false =>
        rw [Catalog.decision_of_not_callable hc] at enter
        cases enter

/-- A call depends on how bodies are evaluated only where one is entered: one level deeper. -/
theorem Gate.checkedCall_congr {run run' : Script → Activity Ending}
    (same : m.thread.depth < maxDepth →
      ∀ (s : Script) (n : Machine), n.thread.depth = m.thread.depth + 1 → run s n = run' s n) :
    g.checkedCall run callee args m = g.checkedCall run' callee args m := by
  rw [checkedCall_eq_carryOut, checkedCall_eq_carryOut]
  cases decided : g.decision callee args m with
  | refuse | lacking | primitive => rfl
  | enter receiver body =>
    unfold Decision.carryOut
    apply counted_congr
    exact same (depth_of_enter decided) (body receiver args) _ rfl

/-- A script makes its calls at the depth at which it is evaluated. -/
theorem Script.evaluate_congr {calls calls' : Calls} (hcalls : calls.Obey g.catalog)
    (hlaunches : launches.Obey g.catalog) {d : Nat}
    (same : ∀ callee args (m : Machine), m.thread.depth = d →
      calls g callee args m = calls' g callee args m)
    (s : Script) {m : Machine} (depth : m.thread.depth = d) :
    s.evaluate calls launches g m = s.evaluate calls' launches g m := by
  induction s generalizing m with
  | finish | panic | exit => rfl
  | call callee args next ih =>
    exact (hcalls g callee args rfl).andThen_congr (same callee args m depth)
      fun result v => ih result depth
  | require capability resource operation next ih =>
    have kept : (g.coveringToken capability resource operation m).2.thread.depth = d := by
      rw [(g.coveringToken_evolves capability resource operation m).2, depth]
    exact ih _ kept
  | find name next ih => exact ih _ depth
  | within context body next body_ih ih =>
    have obeys := (body.evaluate_obeys hcalls hlaunches g rfl).activated context none
      (fun m => .activate m context none) fun w => .release w context
    exact obeys.andThen_congr (Activity.activated_congr context none (body_ih depth))
      fun result v => ih result depth
  | current next ih => exact ih _ depth
  | revoke revocation next ih => exact ih depth
  | cancel next ih => exact ih depth
  | report result next ih => exact ih depth
  | sleep time next ih =>
    have next_same : (fun w => next.evaluate calls launches g { m with world := w }) =
        fun w => next.evaluate calls' launches g { m with world := w } := by
      funext w
      exact ih depth
    show Course.later _ m.world _ = Course.later _ m.world _
    rw [next_same]
  | launch context config unit next _ ih =>
    exact (hlaunches g context config unit rfl).bind_congr rfl fun outcome v => ih outcome depth
  | raise signal next ih =>
    unfold evaluate
    split
    · exact ih depth
    · rfl
  | allocate bytes next ih =>
    unfold evaluate
    split
    · exact ih depth
    · rfl

/-- **Room beyond the greatest depth makes no difference.** -/
theorem callAt_congr (hlaunches : ∀ c, launches.Obey c) {room room' : Nat}
    (enough : maxDepth ≤ room + m.thread.depth) (enough' : maxDepth ≤ room' + m.thread.depth) :
    callAt launches room g callee args m = callAt launches room' g callee args m := by
  -- On the room; a body is entered only below the greatest depth, so there is room left for it.
  induction room generalizing room' g callee args m with
  | zero =>
    have full : ¬ m.thread.depth < maxDepth := by omega
    cases room' with
    | zero => rfl
    | succ room' => exact Gate.checkedCall_congr fun below => absurd below full
  | succ room ih =>
    cases room' with
    | zero =>
      have full : ¬ m.thread.depth < maxDepth := by omega
      exact Gate.checkedCall_congr fun below => absurd below full
    | succ room' =>
      refine Gate.checkedCall_congr fun below s n deeper => ?_
      refine s.evaluate_congr (callAt_obeys (hlaunches g.catalog) room) (hlaunches g.catalog)
        (fun callee args n' same => ?_) deeper
      exact ih (by omega) (by omega)

/-- **A call is the checkpoint, with bodies that are evaluated in the same way.** -/
theorem callAt_maxDepth (hlaunches : ∀ c, launches.Obey c) :
    callAt launches maxDepth g callee args m =
      g.checkedCall (fun s => s.evaluate (callAt launches maxDepth) launches g) callee args m := by
  have more : callAt launches maxDepth g callee args m =
      callAt launches (maxDepth + 1) g callee args m :=
    callAt_congr hlaunches (by omega) (by omega)
  exact more

end CapabilityGate
