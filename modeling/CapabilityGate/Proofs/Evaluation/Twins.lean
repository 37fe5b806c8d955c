import CapabilityGate.Proofs.Evaluation.Evolution
import CapabilityGate.Proofs.Evaluation.SideBySide

/-!
# Units that cannot tell where they run

A unit that stays inside, one that computes, uses its gate and ends, does not look at everything in
its world: not at the log, the journal and the pool, and not at the switch that its thread answers
to as long as nobody throws it. `World.Twins` relates the world of a unit on a thread to the world
of the same unit in a process, which differ only there. Each request keeps the two together, so a
whole unit goes the same way in both (`Script.evaluate_twins`), however deep its calls are nested
(`callAt_twins`).
-/
namespace CapabilityGate

/-! ## Units that stay inside -/

/-- **`s.StaysInside may`** — the script computes, uses its gate and ends. It throws no switches but
the host's and asks for no more memory than it may have; it starts no runs and does not end its
process. -/
def Script.StaysInside (may : Nat → Prop) : Script → Prop
  | finish _ => True
  | panic _ => True
  | call _ _ next => ∀ answer, (next answer).StaysInside may
  | require _ _ _ next => ∀ answer, (next answer).StaysInside may
  | find _ next => ∀ answer, (next answer).StaysInside may
  | within _ body next => body.StaysInside may ∧ ∀ answer, (next answer).StaysInside may
  | current next => ∀ answer, (next answer).StaysInside may
  | revoke revocation next => (∃ name, revocation = .named name) ∧ next.StaysInside may
  | cancel next => next.StaysInside may
  | report _ next => next.StaysInside may
  | sleep _ next => next.StaysInside may
  | allocate bytes next => may bytes ∧ next.StaysInside may
  | launch _ _ _ _ => False
  | raise _ _ => False
  | exit _ => False

/-- The registered body that a route enters, if it enters one. -/
def Route.body? {β : Type} : Route β → Option β
  | gated _ _ _ body => some body
  | free _ body => some body
  | notCallable => none
  | primitive _ _ => none
  | denied _ _ => none

/-- Every body that a call can enter stays inside. -/
def Catalog.StaysInside (may : Nat → Prop) (c : Catalog Body) : Prop :=
  ∀ callee body, (c.route callee).body? = some body →
    ∀ receiver args, (body receiver args).StaysInside may

/-! ## Worlds that look the same -/

/-- The world of a unit on a thread and the one of the same unit in a process: they differ in the
log, the journal, the memory limit and the pool, and the unit's own switch is not thrown. What was
logged in the process was logged before the deadline. -/
structure World.Twins (switch : Revocation) (deadline : Time) (may : Nat → Prop)
    (host worker : World) : Prop where
  same : ∃ log entries memory pool, worker = { host with log, entries, memory, pool }
  unthrown : switch ∉ host.revoked
  early : host.clock ≤ deadline
  dated : ∀ d ∈ worker.log.records, 0 ≤ d.timestamp ∧ d.timestamp ≤ deadline
  affords : ∀ bytes, may bytes → host.affords bytes ∧ worker.affords bytes

/-- A thread with the unit's switch, and one in the process, which needs none. -/
structure Thread.Twins (switch : Revocation) (host worker : Thread) : Prop where
  register : ∃ context, host.register = some ⟨context, some switch⟩ ∧
    worker.register = some ⟨context, none⟩
  depth : host.depth = worker.depth

/-- The two machines of a unit. -/
structure Machine.Twins (switch : Revocation) (deadline : Time) (may : Nat → Prop)
    (host worker : Machine) : Prop where
  world : host.world.Twins switch deadline may worker.world
  thread : host.thread.Twins switch worker.thread

section Twins

variable {switch : Revocation} {deadline : Time} {may : Nat → Prop} {w v : World} {m n : Machine}

namespace World.Twins

theorem clock (h : w.Twins switch deadline may v) : w.clock = v.clock := by
  obtain ⟨log, entries, memory, pool, rfl⟩ := h.same
  rfl

/-- A change that neither reads nor writes what the twins differ in. -/
theorem change {f : World → World} (h : w.Twins switch deadline may v)
    (blind : ∀ (w : World) log entries memory pool,
      f { w with log, entries, memory, pool } = { f w with log, entries, memory, pool })
    (unthrown : switch ∉ (f w).revoked) (early : (f w).clock ≤ deadline) :
    (f w).Twins switch deadline may (f v) := by
  obtain ⟨log, entries, memory, pool, rfl⟩ := h.same
  have limit : (f w).memory = w.memory :=
    (congrArg World.memory (blind w w.log w.entries w.memory w.pool)).trans rfl
  have changed := blind w log entries memory pool
  refine ⟨⟨log, entries, memory, pool, changed⟩, unthrown, early, ?_, fun bytes hmay => ?_⟩
  · rw [changed]
    exact h.dated
  · obtain ⟨host, worker⟩ := h.affords bytes hmay
    rw [changed]
    refine ⟨?_, worker⟩
    rw [World.affords, limit]
    exact host

theorem reach (h : w.Twins switch deadline may v) {due : Time} (hdue : due < deadline) :
    (w.reach due).Twins switch deadline may (v.reach due) :=
  h.change (f := fun w => w.reach due) (fun _ _ _ _ _ => rfl) h.unthrown
    (Nat.max_le.mpr ⟨h.early, Nat.le_of_lt hdue⟩)

theorem afterCheck (h : w.Twins switch deadline may v) (budget : Option BudgetId) :
    (w.afterCheck budget).Twins switch deadline may (v.afterCheck budget) := by
  obtain ⟨budgets, eq⟩ := w.afterCheck_eq budget
  refine h.change (f := fun w => w.afterCheck budget) ?_ ?_ ?_
  · intro w log entries memory pool
    cases budget with
    | none => rfl
    | some id =>
      simp only [World.afterCheck, World.changeBudget]
      split <;> rfl
  · rw [eq]
    exact h.unthrown
  · rw [eq]
    exact h.early

theorem cancelHost (h : w.Twins switch deadline may v) :
    w.cancelHost.Twins switch deadline may v.cancelHost := by
  obtain ⟨budgets, eq⟩ := w.cancelHost_eq
  refine h.change (f := World.cancelHost) ?_ ?_ ?_
  · intro w log entries memory pool
    simp only [World.cancelHost]
    split
    · rfl
    · simp only [World.cancel, World.changeBudget]
      split <;> rfl
  · rw [eq]
    exact h.unthrown
  · rw [eq]
    exact h.early

theorem isExhausted (h : w.Twins switch deadline may v) (budget : Option BudgetId) :
    w.isExhausted budget = v.isExhausted budget := by
  obtain ⟨log, entries, memory, pool, rfl⟩ := h.same
  rfl

theorem context? (h : w.Twins switch deadline may v) (name : String) :
    w.context? name = v.context? name := by
  obtain ⟨log, entries, memory, pool, rfl⟩ := h.same
  rfl

/-- What is noted in the journals makes no difference. -/
theorem note (h : w.Twins switch deadline may v) (entries entries' : List Entry) :
    World.Twins switch deadline may { w with entries } { v with entries := entries' } := by
  obtain ⟨log, _, memory, pool, rfl⟩ := h.same
  exact ⟨⟨log, entries', memory, pool, rfl⟩, h.unthrown, h.early, h.dated, h.affords⟩

/-- A denial that is logged now is logged before the deadline. -/
theorem deny (h : w.Twins switch deadline may v) (c : Capability) (resource : Option String)
    (operation : String) :
    World.Twins switch deadline may (w.deny ⟨c, resource, operation, w.clock⟩)
      (v.deny ⟨c, resource, operation, v.clock⟩) := by
  have early := h.early
  obtain ⟨log, entries, memory, pool, rfl⟩ := h.same
  refine ⟨⟨_, entries, memory, pool, rfl⟩, h.unthrown, h.early, fun d hd => ?_, h.affords⟩
  rcases List.mem_append.mp hd with old | new
  · exact h.dated d old
  · rw [List.mem_singleton.mp new]
    exact ⟨Int.natCast_nonneg _, Int.ofNat_le.mpr early⟩

end World.Twins

/-- Nobody but a thread itself sees which switch its context answers to, as long as it is not
thrown. -/
theorem Machine.Twins.visible (h : m.Twins switch deadline may n) : m.visible = n.visible := by
  obtain ⟨context, host, worker⟩ := h.thread.register
  have unthrown : m.world.isRevoked switch = false := by
    simpa [World.isRevoked] using h.world.unthrown
  have store : n.world.store = m.world.store := by
    obtain ⟨log, entries, memory, pool, eq⟩ := h.world.same
    rw [eq]
  simp [Machine.visible, host, worker, Register.visible, unthrown, store]

/-! ## Activities that cannot tell -/

/-- The results of a unit on its two threads. -/
structure Return.Twins {α : Type} (switch : Revocation) (host worker : Return α) : Prop where
  result : host.result = worker.result
  thread : host.thread.Twins switch worker.thread
  late : host.late = none ∧ worker.late = none

/-- **`x.Twins switch deadline may`** — the activity goes the same way on the two machines of a
unit. -/
def Activity.Twins {α : Type} (switch : Revocation) (deadline : Time) (may : Nat → Prop)
    (x : Activity α) : Prop :=
  ∀ m n, Machine.Twins switch deadline may m n →
    (x m).Alike (World.Twins switch deadline may) (Return.Twins switch) (x n)

namespace Activity

variable {α β : Type}

theorem twins_pure (a : α) : (pure a).Twins switch deadline may :=
  fun _ _ h => ⟨h.world, rfl, h.thread, rfl, rfl⟩

theorem twins_refuse (f : Fault) : (refuse f).Twins switch deadline may :=
  twins_pure _

theorem Twins.bind {x : Activity α} {f : α → Activity β} (hx : x.Twins switch deadline may)
    (hf : ∀ a, (f a).Twins switch deadline may) : (x.bind f).Twins switch deadline may := by
  intro m n h
  refine Course.Alike.bind (hx m n h) fun r s w v hrs hwv => ?_
  rw [hrs.late.1, hrs.late.2, hrs.result]
  exact hf s.result _ _ ⟨hwv, hrs.thread⟩

theorem Twins.andThen {x : Activity Ending} {f : Result → Activity Ending}
    (hx : x.Twins switch deadline may) (hf : ∀ r, (f r).Twins switch deadline may) :
    (x.andThen f).Twins switch deadline may := by
  refine hx.bind fun ending => ?_
  cases ending with
  | returned result => exact hf result
  | panicked message => exact twins_pure _

/-- An activation without a switch of its own answers to the one that is there. -/
theorem Twins.activated {x : Activity α} (hx : x.Twins switch deadline may) (context : ContextId) :
    (x.activated context none).Twins switch deadline may := by
  intro m n h
  obtain ⟨outer, host, worker⟩ := h.thread.register
  have inside : Machine.Twins switch deadline may (m.activate context none)
      (n.activate context none) := by
    refine ⟨?_, ⟨context, ?_, ?_⟩, h.thread.depth⟩
    · exact h.world.change (f := fun w =>
        { w.hold context with activations := (w.hold context).activations + 1 })
        (fun _ _ _ _ _ => rfl) h.world.unthrown h.world.early
    · simp [Machine.activate, Register.activate, Register.revocation, host]
    · simp [Machine.activate, Register.activate, Register.revocation, worker]
  refine Course.Alike.bind (hx _ _ inside) fun r s w v hrs hwv => ?_
  refine ⟨?_, hrs.result, ⟨h.thread.register, hrs.thread.depth⟩, hrs.late⟩
  exact hwv.change (f := fun w => w.release context) (fun _ _ _ _ _ => rfl) hwv.unthrown hwv.early

theorem Twins.counted {x : Activity α} (hx : x.Twins switch deadline may) :
    x.counted.Twins switch deadline may := by
  intro m n h
  have inside : Machine.Twins switch deadline may m.enter n.enter :=
    ⟨h.world, h.thread.register, congrArg (· + 1) h.thread.depth⟩
  refine Course.Alike.bind (hx _ _ inside) fun r s w v hrs hwv => ?_
  exact ⟨hwv, hrs.result, ⟨hrs.thread.register, congrArg (· - 1) hrs.thread.depth⟩, hrs.late⟩

end Activity

/-! ## The gate -/

namespace Machine.Twins

theorem afterCheck (h : m.Twins switch deadline may n) (budget : Option BudgetId) :
    (m.afterCheck budget).Twins switch deadline may (n.afterCheck budget) :=
  ⟨h.world.afterCheck budget, h.thread⟩

theorem deny (h : m.Twins switch deadline may n) (c : Capability) (resource : Option String)
    (operation : String) :
    (m.deny c resource operation).Twins switch deadline may (n.deny c resource operation) :=
  ⟨h.world.deny c resource operation, h.thread⟩

theorem denyAll (h : m.Twins switch deadline may n) (missing : List Capability)
    (resource : Option String) (operation : String) :
    (m.denyAll missing resource operation).Twins switch deadline may
      (n.denyAll missing resource operation) := by
  unfold Machine.denyAll
  induction missing generalizing m n with
  | nil => exact h
  | cons c missing ih => exact ih (h.deny c resource operation)

theorem noteEntry (h : m.Twins switch deadline may n) (callee : Value) (registered : Bool) :
    (m.noteEntry callee registered).Twins switch deadline may (n.noteEntry callee registered) :=
  ⟨h.world.note _ _, h.thread⟩

/-- Both questions for a token get the same answer. -/
theorem coveringToken (h : m.Twins switch deadline may n) (g : Gate) (c : Capability)
    (resource operation : String) :
    (g.coveringToken c resource operation m).1 = (g.coveringToken c resource operation n).1 ∧
      (g.coveringToken c resource operation m).2.Twins switch deadline may
        (g.coveringToken c resource operation n).2 := by
  have checked := h.afterCheck g.budget
  unfold Gate.coveringToken
  dsimp only
  rw [h.world.isExhausted g.budget, checked.visible]
  split
  · exact ⟨rfl, checked⟩
  · split
    · split
      · exact ⟨rfl, checked⟩
      · exact ⟨rfl, checked.deny c (some resource) operation⟩
    · exact ⟨rfl, checked.deny c (some resource) operation⟩

end Machine.Twins

namespace Gate

variable {g : Gate} {run : Script → Activity Ending}

theorem follow_twins (hg : g.catalog.StaysInside may)
    (hrun : ∀ s : Script, s.StaysInside may → (run s).Twins switch deadline may) (callee : Value)
    (args : List Value) : (g.follow run callee args).Twins switch deadline may := by
  intro m n h
  have bodies := hg callee
  unfold follow
  rw [h.visible]
  -- One case for each route of a call.
  cases route : g.catalog.route callee with
  | notCallable => exact Activity.twins_refuse _ m n h
  | gated symbol requirement receiver body =>
    dsimp only
    split
    · exact hrun _ (bodies body (by rw [route]; rfl) receiver args) _ _ (h.noteEntry callee true)
    · exact Activity.twins_refuse _ _ _ (h.denyAll _ _ _)
  | free receiver body =>
    exact hrun _ (bodies body (by rw [route]; rfl) receiver args) _ _ (h.noteEntry callee true)
  | primitive method receiver => exact Activity.twins_pure _ _ _ (h.noteEntry callee false)
  | denied symbol origin => exact Activity.twins_refuse _ m n h

theorem checkedCall_twins (hg : g.catalog.StaysInside may)
    (hrun : ∀ s : Script, s.StaysInside may → (run s).Twins switch deadline may) (callee : Value)
    (args : List Value) : (g.checkedCall run callee args).Twins switch deadline may := by
  have within : (g.followWithin run callee args).Twins switch deadline may := by
    intro m n h
    unfold followWithin
    rw [h.thread.depth]
    split
    · exact Activity.twins_refuse _ m n h
    · exact follow_twins hg hrun callee args m n h
  intro m n h
  have checked := h.afterCheck g.budget
  unfold checkedCall
  dsimp only
  rw [h.world.isExhausted g.budget]
  split
  · exact Activity.twins_refuse _ _ _ checked
  · split
    · exact within.counted _ _ checked
    · exact Activity.twins_refuse _ _ _ checked

end Gate

/-! ## Scripts and calls -/

theorem Script.evaluate_twins {calls : Calls} {launches : Launches} {g : Gate}
    (own : ∀ name, switch ≠ .named name)
    (hcalls : ∀ callee args, (calls g callee args).Twins switch deadline may) (s : Script)
    (hs : s.StaysInside may) : (s.evaluate calls launches g).Twins switch deadline may := by
  -- On the tree of the script, one case for each request that stays inside.
  induction s with
  | finish result => exact Activity.twins_pure _
  | panic message => exact Activity.twins_pure _
  | call callee args next ih => exact (hcalls callee args).andThen fun r => ih r (hs r)
  | require c resource operation next ih =>
    intro m n h
    obtain ⟨answer, after⟩ := h.coveringToken g c resource operation
    unfold evaluate
    dsimp only
    rw [answer]
    exact ih _ (hs _) _ _ after
  | find name next ih =>
    intro m n h
    unfold evaluate
    rw [h.world.context? name]
    exact ih _ (hs _) m n h
  | within context body next ihbody ih =>
    exact ((ihbody hs.1).activated context).andThen fun r => ih r (hs.2 r)
  | current next ih =>
    intro m n h
    unfold evaluate
    rw [h.visible]
    exact ih _ (hs _) m n h
  | revoke revocation next ih =>
    obtain ⟨⟨name, rfl⟩, hnext⟩ := hs
    intro m n h
    refine ih hnext _ _ ⟨?_, h.thread⟩
    refine h.world.change (f := fun w => w.revoke (.named name)) (fun _ _ _ _ _ => rfl) ?_
      h.world.early
    exact fun thrown => (List.mem_cons.mp thrown).elim (own name) h.world.unthrown
  | cancel next ih =>
    exact fun m n h => ih hs _ _ ⟨h.world.cancelHost, h.thread⟩
  | report result next ih =>
    refine fun m n h => ih hs _ _ ⟨?_, h.thread⟩
    exact h.world.change (f := fun w => w.report result) (fun _ _ _ _ _ => rfl) h.world.unthrown
      h.world.early
  | sleep time next ih =>
    intro m n h
    unfold evaluate
    rw [h.world.clock]
    exact Course.Alike.later h.world h.world.clock fun w v hwv => ih hs _ _ ⟨hwv, h.thread⟩
  | allocate bytes next ih =>
    intro m n h
    obtain ⟨host, worker⟩ := h.world.affords bytes hs.1
    unfold evaluate
    rw [if_pos host, if_pos worker]
    exact ih hs.2 m n h
  | launch | raise | exit => exact hs.elim

theorem callAt_twins {launches : Launches} {g : Gate} (own : ∀ name, switch ≠ .named name)
    (hg : g.catalog.StaysInside may) (room : Nat) (callee : Value) (args : List Value) :
    (callAt launches room g callee args).Twins switch deadline may := by
  -- On the number of calls that may still be nested in this one.
  induction room generalizing callee args with
  | zero => exact Gate.checkedCall_twins hg (fun _ _ => Activity.twins_refuse _) callee args
  | succ room ih =>
    exact Gate.checkedCall_twins hg (fun s hs => s.evaluate_twins own ih hs) callee args

end Twins

end CapabilityGate
