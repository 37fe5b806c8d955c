import CapabilityGate.Gate.Course

/-!
# Activities

The work of one thread, as a function of the state that it finds. An activity comes to a result and
gives back the state of its thread; the workers that it has left behind, for whom nobody waits, are
one course in the background, and whatever the thread does next goes on beside it. While a thread
sleeps others may change the world, but its register and its depth are its own.
-/
namespace CapabilityGate

/-- What a thread comes to: a result, its own state, and the workers left behind. -/
structure Return (α : Type) where
  result : α
  thread : Thread
  late : Option Late

/-- What a thread does from a state on. -/
abbrev Activity (α : Type) := Machine → Course (Return α)

/-- The work of a thread while others go on in the background. -/
def Course.joined {α : Type} (c : Course (Return α)) : Option Late → Course (Return α)
  | none => c
  | some l => (c.beside (some l)).map fun r => { r.1 with late := Late.both r.1.late r.2 }

namespace Activity

variable {α β : Type}

/-- Does nothing. -/
def pure (a : α) : Activity α := fun m => .ended ⟨a, m.thread, none⟩ m.world

/-- Ends with a fault. -/
def refuse (f : Fault) : Activity Ending := pure (.returned (.error f))

/-- **`x.bind f`** — does one thing after the other; what the first one leaves in the background
goes on beside the second. -/
def bind (x : Activity α) (f : α → Activity β) : Activity β := fun m =>
  (x m).bind fun r w => (f r.result ⟨w, r.thread⟩).joined r.late

/-- Goes on with the result of an evaluation, unless it panicked. -/
def andThen (x : Activity Ending) (f : Result → Activity Ending) : Activity Ending :=
  x.bind fun
    | .returned result => f result
    | .panicked message => pure (.panicked message)

/-- **`x.activated context revocation`** — has a context active meanwhile. The register gets back
what it held before, whatever `x` comes to. -/
def activated (x : Activity α) (context : ContextId) (revocation : Option Revocation) :
    Activity α := fun m =>
  (x (m.activate context revocation)).bind fun r w =>
    let after := Machine.restore ⟨w, r.thread⟩ context m.thread.register
    .ended { r with thread := after.thread } after.world

/-- **`x.counted`** — counts as a gate call in progress meanwhile. -/
def counted (x : Activity α) : Activity α := fun m =>
  (x m.enter).bind fun r w =>
    let after := Machine.leave ⟨w, r.thread⟩
    .ended { r with thread := after.thread } after.world

end Activity

end CapabilityGate
