import CapabilityGate.Gate.Machine

/-!
# Courses

How something goes on in a process, wait by wait. A course is a tree: it has come to its end, or its
process has died, or it sleeps until a time that is due. A sleeper does not know the world it will
wake in, so its continuation is a function of that world, and several courses can share one: while
one of them sleeps, another goes on, and each finds what the others have left. The clock moves only
when a course that sleeps is followed to the time at which it wakes.

`Late` is a course in the background, asleep, for whose end nobody waits. Main definitions:
`Course.finish` follows a course to its end, `Course.beside` lets two share a world, and
`Course.race` sets one against a deadline.
-/
namespace CapabilityGate

/-- How something goes on in a process. -/
inductive Course (α : Type) where
  | ended (result : α) (world : World)
  /-- The process, with everything in it, has ended. -/
  | died (death : Death) (world : World)
  /-- Nothing happens until a time, and then what the world of that time leads to. -/
  | asleep (due : Time) (world : World) (next : World → Course α)

/-- What goes on in the background from a time on. -/
structure Late where
  due : Time
  next : World → Course Unit

namespace Course

variable {α β : Type}

/-- **`c.bind f`** — goes on with `f` where `c` has ended. -/
def bind : Course α → (α → World → Course β) → Course β
  | ended a w, f => f a w
  | died death w, _ => died death w
  | asleep due w next, f => asleep due w fun w => (next w).bind f

/-- Changes the result of a course. -/
def map (f : α → β) (c : Course α) : Course β := c.bind fun a w => ended (f a) w

theorem bind_ended (c : Course α) : c.bind ended = c := by
  induction c with
  | ended a w => rfl
  | died death w => rfl
  | asleep due w next ih => simp only [bind, ih]

theorem bind_assoc {γ : Type} (c : Course α) (f : α → World → Course β)
    (g : β → World → Course γ) : (c.bind f).bind g = c.bind fun a w => (f a w).bind g := by
  induction c with
  | ended a w => rfl
  | died death w => rfl
  | asleep due w next ih => simp only [bind, ih]

/-- Goes on with `next` at a time, at once if that time has come. -/
def later (due : Time) (w : World) (next : World → Course α) : Course α :=
  if due ≤ w.clock then next w else asleep due w next

/-! ## Following a course -/

/-- **`c.goOn enough`** — follows a course until there is enough, which is asked whenever it sleeps:
of the time at which it would wake and of the world it sleeps in. -/
def goOn (enough : Time → World → Bool) : Course α → Course α
  | ended a w => ended a w
  | died death w => died death w
  | asleep due w next =>
    if enough due w then asleep due w next else (next (w.reach due)).goOn enough

/-- **`c.finish`** — follows a course to its end. -/
def finish : Course α → Except (Death × World) (α × World)
  | ended a w => .ok (a, w)
  | died death w => .error (death, w)
  | asleep due w next => (next (w.reach due)).finish

/-! ## Two courses in one world -/

/-- Follows a course that goes on in the background, as far as it is due by `time`; then `next` goes
on, with what is left of it. -/
def background (time : Time) (next : Option Late → World → Course α) : Course Unit → Course α
  | ended () w => next none w
  | died death w => died death w
  | asleep due w rest =>
    if due ≤ time then asleep due w fun w => (rest w).background time next
    else next (some ⟨due, rest⟩) w

/-- **`c.beside late`** — a course while another goes on in the background, with what is left of the
other when it ends. Of two that wake at the same time the one in the background is first. -/
def beside : Course α → Option Late → Course (α × Option Late)
  | ended a w, late => ended (a, late) w
  | died death w, _ => died death w
  | asleep due w next, none => asleep due w fun w => (next w).beside none
  | asleep due w next, some l =>
    let wake (late : Option Late) (w : World) : Course (α × Option Late) :=
      asleep due w fun w => (next w).beside late
    if l.due ≤ due then asleep l.due w fun w => (l.next w).background due wake
    else wake (some l) w

/-- **`c.race deadline inTime expired`** — goes on with `inTime` if the course ends before the
deadline; else with `expired` at the deadline, which is given what is left of the course: the time
at which it wakes, and its rest. -/
def race (deadline : Time) (inTime : α → World → Course β)
    (expired : Time → (World → Course α) → World → Course β) : Course α → Course β
  | ended a w => inTime a w
  | died death w => died death w
  | asleep due w next =>
    if due < deadline then asleep due w fun w => (next w).race deadline inTime expired
    else asleep deadline w (expired due next)

end Course

namespace Late

/-- What goes on in the background, on its own. -/
def course (l : Late) (w : World) : Course Unit := .asleep l.due w l.next

/-- What goes on in the background, if anything, on its own. -/
def courseOf (late : Option Late) (w : World) : Course Unit :=
  match late with
  | none => .ended () w
  | some l => l.course w

/-- Two courses in the background as one. -/
def beside (a b : Late) : Late :=
  let both (first second : Late) : Late :=
    ⟨first.due, fun w => ((first.next w).beside (some second)).bind fun r w => courseOf r.2 w⟩
  if a.due ≤ b.due then both a b else both b a

/-- What goes on in the background from two sides. -/
def both : Option Late → Option Late → Option Late
  | none, b => b
  | a, none => a
  | some a, some b => some (a.beside b)

end Late

end CapabilityGate
