import CapabilityGate.Proofs.Evaluation.Evolution

/-!
# The count of detached workers

The waiter of a run counts before it tries to give the run up, and takes the count back when it was
too late; a worker that was given up takes the count back itself. Between the two the count is ahead
of what has been decided, so it says what it should only together with the waiters on their way.
`Settlement.share` is what a single run adds to the count at any moment. One step of one party
changes the count by exactly what it changes of that (`Settlement.Sound.share_step`), so the count
of a pool is the sum of the shares of its runs, however the steps of all parties are interleaved.
-/
namespace CapabilityGate

/-! ## One run -/

namespace Settlement

/-- The run was given up, and its worker has not taken the count back. -/
def isDetached (s : Settlement) : Bool :=
  s.verdict = .abandoned && (s.worker = .working || s.worker = .late)

/-- The waiter has counted the worker, and has neither given the run up nor taken the count back. -/
def isResolving (s : Settlement) : Bool := s.waiter = .counted || s.waiter = .overtaken

/-- What the run adds to the count of detached workers. -/
def share (s : Settlement) : Nat := s.isDetached.toNat + s.isResolving.toNat

/-- Both parties of the run are done. -/
def isOver (s : Settlement) : Bool := s.waiter = .returned && s.worker = .returned

/-- **`s.Sound`** — what has been decided agrees with how far the two parties have come. -/
structure Sound (s : Settlement) : Prop where
  /-- As long as nothing is decided, neither party has tried to. -/
  running : s.verdict = .running →
    s.worker = .working ∧ s.waiter ≠ .overtaken ∧ s.waiter ≠ .returned
  finished : s.verdict = .finished → s.worker = .settled ∨ s.worker = .returned
  abandoned : s.verdict = .abandoned → s.waiter = .returned

theorem sound_start : start.Sound := by
  constructor <;> simp [start]

variable {s : Settlement} (move : Move)

/-- **What is decided stays decided.** -/
theorem verdict_step (decided : s.verdict ≠ .running) : (s.step move).1.verdict = s.verdict := by
  obtain ⟨verdict, waiter, worker⟩ := s
  cases move with
  | receive => cases waiter <;> cases worker <;> rfl
  | expire => cases waiter <;> rfl
  | waiter => cases waiter <;> simp_all [step]
  | worker => cases worker <;> simp_all [step]

namespace Sound

theorem step (h : s.Sound) : (s.step move).1.Sound := by
  obtain ⟨verdict, waiter, worker⟩ := s
  obtain ⟨running, finished, abandoned⟩ := h
  cases move with
  | receive => cases waiter <;> cases worker <;> constructor <;> simp_all [Settlement.step]
  | expire => cases waiter <;> constructor <;> simp_all [Settlement.step]
  | waiter =>
    cases waiter with
    | counted =>
      -- The attempt to give the run up; it looks at what has been decided.
      cases verdict <;> constructor <;> simp_all [Settlement.step]
    | waiting | expired | revoked | cancelled | overtaken | returned =>
      constructor <;> simp_all [Settlement.step]
  | worker =>
    cases worker with
    | working =>
      -- The attempt to finish the run.
      cases verdict <;> constructor <;> simp_all [Settlement.step]
    | late | settled | returned => constructor <;> simp_all [Settlement.step]

/-- **A step changes the count by what it changes of the share of its run.** -/
theorem share_step (h : s.Sound) : ((s.step move).1.share : Int) = s.share + (s.step move).2 := by
  obtain ⟨verdict, waiter, worker⟩ := s
  obtain ⟨running, finished, abandoned⟩ := h
  cases move with
  | receive => cases waiter <;> cases worker <;> rfl
  | expire => cases waiter <;> rfl
  | waiter =>
    cases waiter with
    | counted =>
      -- A run that is given up here still has its worker, so its share is as before.
      cases verdict with
      | running =>
        obtain ⟨rfl, -, -⟩ := running rfl
        rfl
      | finished => rfl
      | abandoned => cases abandoned rfl
    | overtaken =>
      cases verdict with
      | running => exact absurd rfl (running rfl).2.1
      | finished => rfl
      | abandoned => cases abandoned rfl
    | waiting | expired | revoked | cancelled | returned => cases verdict <;> cases worker <;> rfl
  | worker =>
    cases worker with
    | working => cases verdict <;> cases waiter <;> rfl
    | late =>
      -- Only the worker of a run that was given up is late, so there is a count to take back.
      cases verdict with
      | running => cases (running rfl).1
      | finished => rcases finished rfl with settled | returned <;> contradiction
      | abandoned =>
        obtain rfl := abandoned rfl
        rfl
    | settled | returned => cases verdict <;> cases waiter <;> rfl

/-- Once one of the parties has tried to settle the run, it is settled. -/
theorem decided (h : s.Sound) (tried : s.waiter = .returned ∨ s.worker ≠ .working) :
    s.verdict ≠ .running := by
  intro undecided
  obtain ⟨working, -, waits⟩ := h.running undecided
  rcases tried with returned | done
  · exact waits returned
  · exact done working

/-- A worker is late only in a run that was given up. -/
theorem late (h : s.Sound) (late : s.worker = .late) : s.verdict = .abandoned := by
  cases verdict : s.verdict with
  | running => exact absurd (h.running verdict).1 (by simp [late])
  | finished => exact absurd (h.finished verdict) (by simp [late])
  | abandoned => rfl

/-- A waiter is overtaken only in a run that was finished. -/
theorem overtaken (h : s.Sound) (overtaken : s.waiter = .overtaken) : s.verdict = .finished := by
  cases verdict : s.verdict with
  | running => exact absurd overtaken (h.running verdict).2.1
  | finished => rfl
  | abandoned => exact absurd (h.abandoned verdict) (by simp [overtaken])

/-- A run adds one to the count or nothing. -/
theorem share_le (h : s.Sound) : s.share ≤ 1 := by
  cases verdict : s.verdict with
  | running | finished =>
    have attached : s.isDetached = false := by simp [isDetached, verdict]
    rw [share, attached]
    cases s.isResolving <;> decide
  | abandoned =>
    have resolved : s.isResolving = false := by simp [isResolving, h.abandoned verdict]
    rw [share, resolved]
    cases s.isDetached <;> decide

end Sound

/-- A run that is over adds nothing. -/
theorem share_of_over (done : s.isOver = true) : s.share = 0 := by
  obtain ⟨waiter, worker⟩ : s.waiter = .returned ∧ s.worker = .returned := by
    simpa [isOver] using done
  simp [share, isDetached, isResolving, waiter, worker]

end Settlement

/-! ## All runs -/

/-- Something that happens in a pool: a run starts, or a party of a run does a step. -/
inductive Occurrence where
  | start
  | move (run : Nat) (move : Move)

namespace Pool

variable {p : Pool}

/-- The pool after something has happened. -/
def occur (p : Pool) : Occurrence → Pool
  | .start => p.start
  | .move run move => p.step run move

/-- **`p.after os`** — the pool after one thing has happened after the other, in whatever runs. -/
def after (p : Pool) (os : List Occurrence) : Pool := os.foldl occur p

/-- What runs add to the count together. -/
def shares : List Settlement → Nat
  | [] => 0
  | s :: runs => s.share + shares runs

/-- **`p.Sound`** — all runs are sound, and the count is made of their shares. -/
structure Sound (p : Pool) : Prop where
  runs : ∀ s ∈ p.runs, s.Sound
  detached : p.detached = shares p.runs

theorem sound_empty : empty.Sound := ⟨by simp [empty], rfl⟩

section Shares

variable {runs : List Settlement}

theorem shares_concat (runs : List Settlement) (s : Settlement) :
    shares (runs ++ [s]) = shares runs + s.share := by
  induction runs with
  | nil =>
    show s.share + 0 = 0 + s.share
    omega
  | cons first runs ih => rw [List.cons_append, shares, shares, ih, Nat.add_assoc]

theorem shares_set {i : Nat} {s : Settlement} (there : runs[i]? = some s) (s' : Settlement) :
    shares (runs.set i s') + s.share = shares runs + s'.share := by
  induction runs generalizing i with
  | nil => cases there
  | cons first runs ih =>
    cases i with
    | zero =>
      obtain rfl : first = s := Option.some.inj there
      show s'.share + shares runs + first.share = first.share + shares runs + s'.share
      omega
    | succ i =>
      have rest := ih there
      show first.share + shares (runs.set i s') + s.share = first.share + shares runs + s'.share
      omega

/-- Together the runs add the detached workers and the waiters on their way. -/
theorem shares_eq_countP (runs : List Settlement) :
    shares runs =
      runs.countP Settlement.isDetached + runs.countP Settlement.isResolving := by
  induction runs with
  | nil => rfl
  | cons s runs ih =>
    rw [shares, Settlement.share, ih, List.countP_cons, List.countP_cons]
    cases s.isDetached <;> cases s.isResolving <;> simp <;> omega

theorem shares_le_length (sound : ∀ s ∈ runs, s.Sound) : shares runs ≤ runs.length := by
  induction runs with
  | nil => exact Nat.le_refl 0
  | cons s runs ih =>
    obtain ⟨first, rest⟩ := List.forall_mem_cons.1 sound
    have one := first.share_le
    have others := ih rest
    show s.share + shares runs ≤ runs.length + 1
    omega

theorem shares_eq_zero (all_over : ∀ s ∈ runs, s.isOver = true) : shares runs = 0 := by
  induction runs with
  | nil => rfl
  | cons s runs ih =>
    obtain ⟨first, rest⟩ := List.forall_mem_cons.1 all_over
    rw [shares, Settlement.share_of_over first, ih rest]

end Shares

/-- A step of one party: its run is sound again, and the count follows its share. -/
theorem Sound.step (h : p.Sound) (run : Nat) (move : Move) : (p.step run move).Sound := by
  unfold Pool.step
  cases there : p.runs[run]? with
  | none => exact h
  | some s =>
    have sound : s.Sound := h.runs s (List.mem_of_getElem? there)
    refine ⟨fun s' mem => ?_, ?_⟩
    · rcases List.mem_or_eq_of_mem_set mem with old | rfl
      · exact h.runs s' old
      · exact sound.step move
    · have share := sound.share_step move
      have total := shares_set there (s.step move).1
      have count := h.detached
      show p.detached + (s.step move).2 = shares (p.runs.set run (s.step move).1)
      omega

theorem Sound.occur (h : p.Sound) (o : Occurrence) : (p.occur o).Sound := by
  cases o with
  | start =>
    refine ⟨fun s mem => ?_, ?_⟩
    · rcases List.mem_append.1 mem with old | new
      · exact h.runs s old
      · obtain rfl := List.mem_singleton.1 new
        exact Settlement.sound_start
    · show p.detached = shares (p.runs ++ [Settlement.start])
      rw [shares_concat]
      exact h.detached
  | move run move => exact h.step run move

theorem Sound.after (h : p.Sound) (os : List Occurrence) : (p.after os).Sound := by
  unfold Pool.after
  induction os generalizing p with
  | nil => exact h
  | cons o os ih => exact ih (h.occur o)

/-- A run is still there after something has happened, and if it was settled it still is, in the
same way. -/
theorem occur_getElem? {i : Nat} {s : Settlement} (there : p.runs[i]? = some s) (o : Occurrence) :
    ∃ s', (p.occur o).runs[i]? = some s' ∧ (s.verdict ≠ .running → s'.verdict = s.verdict) := by
  obtain ⟨within, rfl⟩ := List.getElem?_eq_some_iff.1 there
  cases o with
  | start =>
    refine ⟨p.runs[i], ?_, fun _ => rfl⟩
    show (p.runs ++ [Settlement.start])[i]? = _
    rw [List.getElem?_append_left within, there]
  | move run move =>
    show ∃ s', (p.step run move).runs[i]? = some s' ∧ _
    unfold Pool.step
    cases moved : p.runs[run]? with
    | none => exact ⟨p.runs[i], there, fun _ => rfl⟩
    | some s =>
      show ∃ s', (p.runs.set run (s.step move).1)[i]? = some s' ∧ _
      rw [List.getElem?_set]
      by_cases same : run = i
      · subst same
        obtain rfl : p.runs[run] = s := Option.some.inj (there.symm.trans moved)
        refine ⟨(p.runs[run].step move).1, by simp [within], fun decided => ?_⟩
        exact Settlement.verdict_step move decided
      · exact ⟨p.runs[i], by simp [same, there], fun _ => rfl⟩

theorem after_getElem? {i : Nat} {s : Settlement} (there : p.runs[i]? = some s)
    (os : List Occurrence) :
    ∃ s', (p.after os).runs[i]? = some s' ∧ (s.verdict ≠ .running → s'.verdict = s.verdict) := by
  unfold Pool.after
  induction os generalizing p s with
  | nil => exact ⟨s, there, fun _ => rfl⟩
  | cons o os ih =>
    obtain ⟨s', there', keeps⟩ := occur_getElem? there o
    obtain ⟨s'', there'', keeps'⟩ := ih there'
    refine ⟨s'', there'', fun decided => ?_⟩
    rw [keeps' (by rwa [keeps decided]), keeps decided]

/-- Moves in one run are things that happen. -/
theorem steps_eq_after (i : Nat) (moves : List Move) :
    p.steps i moves = p.after (moves.map (.move i)) := by
  unfold steps Pool.after
  rw [List.foldl_map]
  rfl

end Pool

/-! ## Evaluations -/

/-- The runs of one world have gone on to those of another. -/
def World.PoolGoesOn (w w' : World) : Prop := ∃ os, w'.pool = w.pool.after os

namespace World

instance : IsPreorder World PoolGoesOn where
  refl _ := ⟨[], rfl⟩
  trans := by
    rintro u v w ⟨os, first⟩ ⟨os', second⟩
    refine ⟨os ++ os', ?_⟩
    rw [second, first, Pool.after, Pool.after, Pool.after, List.foldl_append]

theorem poolGoesOn_of_eq {w w' : World} (same : w'.pool = w.pool) : PoolGoesOn w w' := ⟨[], same⟩

theorem poolGoesOn_steps (w : World) {w' : World} (i : Nat) (moves : List Move)
    (stepped : w'.pool = w.pool.steps i moves) : PoolGoesOn w w' :=
  ⟨moves.map (.move i), stepped.trans (Pool.steps_eq_after i moves)⟩

/-- Only the runs on threads have to do with the pool, and they start in it and move in it. -/
theorem Evolves.poolGoesOn {c : Catalog Body} {w w' : World} (h : Evolves c w w') :
    PoolGoesOn w w' := by
  induction h with
  | refl w => exact refl_of PoolGoesOn w
  | trans _ _ first second => exact trans_of PoolGoesOn first second
  | check w budget =>
    obtain ⟨budgets, eq⟩ := w.afterCheck_eq budget
    exact poolGoesOn_of_eq (by rw [eq])
  | refuse m args =>
    refine poolGoesOn_of_eq ?_
    rw [Machine.denyAll_eq]
    rfl
  | cancel w =>
    obtain ⟨budgets, eq⟩ := w.cancelHost_eq
    exact poolGoesOn_of_eq (by rw [eq])
  | opened w run => exact ⟨[.start], rfl⟩
  | closed w run => exact poolGoesOn_steps w run.number _ rfl
  | abandoned w run =>
    obtain ⟨budgets, eq⟩ := (w.revoke run.switch).changeBudget_eq run.budget Budget.cancel
    have same : ((w.revoke run.switch).cancel run.budget).pool = w.pool := by
      rw [World.cancel, eq]
      rfl
    refine poolGoesOn_steps w run.number [.expire, .waiter, .waiter, .waiter, .waiter] ?_
    show ((w.revoke run.switch).cancel run.budget).pool.abandon run.number = _
    rw [same]
    rfl
  | returned w run => exact poolGoesOn_steps w run.number _ rfl
  | reach | enter | primitive | deny | activate | release | revoke | report | spend | held
  | joined =>
    exact poolGoesOn_of_eq rfl

end World

/-- **Detached workers are accounted for.** Let any number of runs start, and let the single steps
of all waiters and workers be interleaved in any way; somebody looks at the count after what has
happened `before`, and again after what has happened `after` that. The count is never below zero. It
is the number of runs that were given up and whose worker has not taken the count back, plus the
number of waiters that have counted and neither given their run up nor taken the count back, so it
is never more than the number of runs. A run that is settled stays settled in the one way in which
it was; it is settled once one of its parties has tried, and who takes the count back is the one who
came second. When both parties of every run are done, every run is finished or abandoned and the
count is zero.

What evaluations do to the count are such steps, in every stretch of theirs and in those of the
workers that they leave behind. -/
theorem detached_workers_accounted_for (before after : List Occurrence) :
    let p := Pool.empty.after before
    let q := p.after after
    0 ≤ p.detached ∧
    p.detached =
      (p.runs.countP Settlement.isDetached + p.runs.countP Settlement.isResolving : Nat) ∧
    p.detached ≤ p.runs.length ∧
    (∀ (i : Nat) (s : Settlement), p.runs[i]? = some s →
      ∃ s', q.runs[i]? = some s' ∧ (s.verdict ≠ .running → s'.verdict = s.verdict)) ∧
    (∀ s ∈ p.runs,
      (s.waiter = .returned ∨ s.worker ≠ .working →
        s.verdict = .finished ∨ s.verdict = .abandoned) ∧
      (s.worker = .late → s.verdict = .abandoned) ∧
      (s.waiter = .overtaken → s.verdict = .finished)) ∧
    ((∀ s ∈ p.runs, s.isOver = true) →
      p.detached = 0 ∧ ∀ s ∈ p.runs, s.verdict = .finished ∨ s.verdict = .abandoned) ∧
    ∀ (g : Gate) (s : Script) (m : Machine),
      (g.execute s m).Obeys World.PoolGoesOn
        (fun r => Late.AllObey World.PoolGoesOn r.late) m.world := by
  intro p q
  have sound : p.Sound := Pool.sound_empty.after before
  have settled : ∀ s ∈ p.runs, s.waiter = .returned ∨ s.worker ≠ .working →
      s.verdict = .finished ∨ s.verdict = .abandoned := by
    intro s mem tried
    have decided := (sound.runs s mem).decided tried
    cases verdict : s.verdict with
    | running => exact absurd verdict decided
    | finished => exact .inl rfl
    | abandoned => exact .inr rfl
  refine ⟨?_, ?_, ?_, fun i s there => Pool.after_getElem? there after, fun s mem => ?_,
    fun all_over => ?_, fun g s m => ?_⟩
  · rw [sound.detached]
    exact Int.natCast_nonneg _
  · rw [sound.detached, Pool.shares_eq_countP]
  · rw [sound.detached]
    exact Int.ofNat_le.2 (Pool.shares_le_length sound.runs)
  · have run := sound.runs s mem
    exact ⟨settled s mem, run.late, run.overtaken⟩
  · refine ⟨?_, fun s mem => ?_⟩
    · rw [sound.detached, Pool.shares_eq_zero all_over]
      rfl
    · have done : s.waiter = .returned ∧ s.worker = .returned := by
        simpa [Settlement.isOver] using all_over s mem
      exact settled s mem (.inl done.1)
  · refine (g.execute_obeys s m).mono (fun _ _ => World.Evolves.poolGoesOn) fun r hr l hl v => ?_
    exact (hr.late l hl v).mono (fun _ _ => World.Evolves.poolGoesOn) fun _ h => h

/-- A worker that returns while its waiter is on the way: the count is ahead, and comes back. -/
example :
    let overtaken := Pool.empty.after
      (.start :: [Move.expire, .waiter, .waiter, .waiter, .worker].map (.move 0))
    overtaken.detached = 1 ∧ overtaken.runs.countP Settlement.isDetached = 0 ∧
      (overtaken.after ([Move.waiter, .waiter, .worker].map (.move 0))).detached = 0 := by
  decide

end CapabilityGate
