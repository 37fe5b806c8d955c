import CapabilityGate.Gate.Evaluate
import CapabilityGate.Proofs.Evaluation.Stretch

/-!
# The conduct of a thread

An activity obeys a relation if all its stretches do, those of the workers that it leaves behind
included, and if it gives its thread back as it found it. The combinators of `Activity` keep this:
one thing after the other, an activation that is undone, a call that is counted. `Activity.Obeys` is
the form in which properties of evaluations are proved.
-/
namespace CapabilityGate

variable {α β : Type} {R : World → World → Prop}

/-- The thread is given back as it was, and what is left in the background obeys `R`. -/
structure Return.Keeps (R : World → World → Prop) (t : Thread) (r : Return α) : Prop where
  thread : r.thread = t
  late : Late.AllObey R r.late

/-- A course that begins on a machine obeys `R` and keeps the thread of the machine. -/
def Course.ObeysFrom (R : World → World → Prop) (m : Machine) (c : Course (Return α)) : Prop :=
  c.Obeys R (Return.Keeps R m.thread) m.world

/-- **`x.Obeys R`** — wherever the activity begins, its stretches are in `R` and its thread is
kept. -/
def Activity.Obeys (R : World → World → Prop) (x : Activity α) : Prop :=
  ∀ m, (x m).ObeysFrom R m

variable [IsPreorder World R]

namespace Course.ObeysFrom

variable {c : Course (Return α)} {m n : Machine}

/-- A change of the world before a course begins. -/
theorem after (hworld : R m.world n.world) (hthread : n.thread = m.thread)
    (h : c.ObeysFrom R n) : c.ObeysFrom R m := by
  unfold Course.ObeysFrom at h ⊢
  rw [hthread] at h
  exact Course.Obeys.after hworld h

theorem change {f : World → World} (hworld : R m.world (f m.world))
    (h : c.ObeysFrom R (m.change f)) : c.ObeysFrom R m :=
  after (n := m.change f) hworld rfl h

theorem joined {late : Option Late} (h : c.ObeysFrom R m) (hl : Late.AllObey R late) :
    (c.joined late).ObeysFrom R m := by
  cases late with
  | none => exact h
  | some l =>
    refine (Course.Obeys.beside h hl).map fun r hr => ?_
    exact ⟨hr.1.thread, hr.1.late.both hr.2⟩

end Course.ObeysFrom

namespace Activity

theorem obeys_pure (a : α) : (pure a).Obeys R :=
  fun m => ⟨refl_of R m.world, rfl, Late.allObey_none⟩

theorem obeys_refuse (f : Fault) : (refuse f).Obeys R :=
  obeys_pure _

theorem Obeys.bind {x : Activity α} {f : α → Activity β} (hx : x.Obeys R)
    (hf : ∀ a, (f a).Obeys R) : (x.bind f).Obeys R := by
  intro m
  refine Course.Obeys.bind (hx m) fun r v hr => ?_
  have hnext : (f r.result ⟨v, r.thread⟩).ObeysFrom R ⟨v, m.thread⟩ := by
    have h := hf r.result ⟨v, r.thread⟩
    rw [hr.thread] at h ⊢
    exact h
  exact hnext.joined hr.late

theorem Obeys.andThen {x : Activity Ending} {f : Result → Activity Ending} (hx : x.Obeys R)
    (hf : ∀ r, (f r).Obeys R) : (x.andThen f).Obeys R := by
  refine hx.bind fun ending => ?_
  cases ending with
  | returned r => exact hf r
  | panicked message => exact obeys_pure _

/-- An activation is undone on every way out, so the register is as it was. -/
theorem Obeys.activated {x : Activity α} (hx : x.Obeys R) (context : ContextId)
    (revocation : Option Revocation)
    (hactivate : ∀ m : Machine, R m.world (m.activate context revocation).world)
    (hrelease : ∀ w : World, R w (w.release context)) :
    (x.activated context revocation).Obeys R := by
  intro m
  have hin : (x (m.activate context revocation)).Obeys R
      (Return.Keeps R (m.activate context revocation).thread) m.world :=
    Course.Obeys.after (hactivate m) (hx _)
  refine hin.bind fun r v hr => ?_
  refine ⟨hrelease v, ?_, hr.late⟩
  simp [Machine.restore, hr.thread, Machine.activate]

/-- A call is counted out on every way out, so the depth is as it was. -/
theorem Obeys.counted {x : Activity α} (hx : x.Obeys R) : x.counted.Obeys R := by
  intro m
  have hin : (x m.enter).Obeys R (Return.Keeps R m.enter.thread) m.world := hx m.enter
  refine hin.bind fun r v hr => ?_
  refine ⟨refl_of R v, ?_, hr.late⟩
  simp [Machine.leave, hr.thread, Machine.enter]

end Activity

end CapabilityGate
