import CapabilityGate.Gate.Admission

/-!
# Courses that tell what happens in them

A course forgets what was asked of the gate on the way. A *story* is a course that tells it: for each
stretch the list of its events, in order. `Story.courseBy` leaves the telling out, and each way to put
courses together has its counterpart for stories that comes down to it (`courseBy_bind` and so on).

`Story.finish` follows a story to its end and gathers everything that was told.
-/
namespace CapabilityGate

/-- What happens at a gate. -/
inductive Event where
  /-- On a machine a value is called through a gate. -/
  | call (g : Gate) (m : Machine) (callee : Value) (args : List Value)
  /-- On a machine a gate is asked for a covering token. -/
  | require (g : Gate) (m : Machine) (capability : Capability) (resource operation : String)
  /-- A process has ended in which this had happened; its denials came home with it, or not. -/
  | process (told : List Event) (arrived : Bool)

/-- How something goes on in a process, with what happens in each stretch. -/
inductive Story (α : Type) where
  | ended (told : List Event) (result : α) (world : World)
  | died (told : List Event) (death : Death) (world : World)
  | asleep (told : List Event) (due : Time) (world : World) (next : World → Story α)

/-- What goes on in the background from a time on. -/
structure LateStory where
  due : Time
  next : World → Story Unit

variable {α β : Type}

namespace Story

/-- What happened in the first stretch. -/
def told : Story α → List Event
  | ended told _ _ => told
  | died told _ _ => told
  | asleep told _ _ _ => told

/-- **`s.tell told`** — a story before which something else has happened. -/
def tell (before : List Event) : Story α → Story α
  | ended told a w => ended (before ++ told) a w
  | died told death w => died (before ++ told) death w
  | asleep told due w next => asleep (before ++ told) due w next

def bind : Story α → (α → World → Story β) → Story β
  | ended told a w, f => (f a w).tell told
  | died told death w, _ => died told death w
  | asleep told due w next, f => asleep told due w fun w => (next w).bind f

/-- Goes on with `next` at a time, at once if that time has come. -/
def later (due : Time) (w : World) (next : World → Story α) : Story α :=
  if due ≤ w.clock then next w else asleep [] due w next

/-- Follows a story until there is enough. -/
def goOn (enough : Time → World → Bool) : Story α → Story α
  | ended told a w => ended told a w
  | died told death w => died told death w
  | asleep told due w next =>
    if enough due w then asleep told due w next
    else ((next (w.reach due)).goOn enough).tell told

/-- A story that goes on in the background, as far as it is due by `time`; then `next` goes on, with
what is left of it. -/
def background (time : Time) (next : Option LateStory → World → Story α) : Story Unit → Story α
  | ended told () w => (next none w).tell told
  | died told death w => died told death w
  | asleep told due w rest =>
    if due ≤ time then asleep told due w fun w => (rest w).background time next
    else (next (some ⟨due, rest⟩) w).tell told

/-- A story while another goes on in the background, with what is left of the other. -/
def beside : Story α → Option LateStory → Story (α × Option LateStory)
  | ended told a w, late => ended told (a, late) w
  | died told death w, _ => died told death w
  | asleep told due w next, none => asleep told due w fun w => (next w).beside none
  | asleep told due w next, some l =>
    let wake (late : Option LateStory) (w : World) : Story (α × Option LateStory) :=
      asleep [] due w fun w => (next w).beside late
    if l.due ≤ due then asleep told l.due w fun w => (l.next w).background due wake
    else (wake (some l) w).tell told

/-- Goes on with `inTime` if the story ends before the deadline, else with `expired` at it. -/
def race (deadline : Time) (inTime : α → World → Story β)
    (expired : Time → (World → Story α) → World → Story β) : Story α → Story β
  | ended told a w => (inTime a w).tell told
  | died told death w => died told death w
  | asleep told due w next =>
    if due < deadline then asleep told due w fun w => (next w).race deadline inTime expired
    else asleep told deadline w (expired due next)

/-- **`s.finish`** — follows a story to its end: all that happens, and how it ends. -/
def finish : Story α → List Event × Except (Death × World) (α × World)
  | ended told a w => (told, .ok (a, w))
  | died told death w => (told, .error (death, w))
  | asleep told due w next =>
    let rest := (next (w.reach due)).finish
    (told ++ rest.1, rest.2)

end Story

namespace LateStory

/-- What goes on in the background, if anything, on its own. -/
def storyOf (late : Option LateStory) (w : World) : Story Unit :=
  match late with
  | none => .ended [] () w
  | some l => .asleep [] l.due w l.next

/-- Two stories in the background as one. -/
def beside (a b : LateStory) : LateStory :=
  let both (first second : LateStory) : LateStory :=
    ⟨first.due, fun w => ((first.next w).beside (some second)).bind fun r w => storyOf r.2 w⟩
  if a.due ≤ b.due then both a b else both b a

/-- What goes on in the background from two sides. -/
def both : Option LateStory → Option LateStory → Option LateStory
  | none, b => b
  | a, none => a
  | some a, some b => some (a.beside b)

end LateStory

/-! ## Without the telling -/

/-- **`s.courseBy f`** — the course of a story, with its results changed by `f`. -/
def Story.courseBy (f : α → β) : Story α → Course β
  | ended _ a w => .ended (f a) w
  | died _ death w => .died death w
  | asleep _ due w next => .asleep due w fun w => (next w).courseBy f

/-- What goes on in the background, without the telling. -/
def LateStory.late (l : LateStory) : Late := ⟨l.due, fun w => (l.next w).courseBy id⟩

section Course

variable {γ δ : Type} {f : α → γ} {h : β → δ} (s : Story α)

@[simp]
theorem Story.courseBy_tell (told : List Event) : (s.tell told).courseBy f = s.courseBy f := by
  cases s <;> rfl

theorem LateStory.courseBy_storyOf (late : Option LateStory) (w : World) :
    (storyOf late w).courseBy id = Late.courseOf (late.map LateStory.late) w := by
  cases late <;> rfl

namespace Story

theorem courseBy_bind {k : α → World → Story β} {j : γ → World → Course δ}
    (hk : ∀ a w, (k a w).courseBy h = j (f a) w) :
    (s.bind k).courseBy h = (s.courseBy f).bind j := by
  induction s with
  | ended told a w =>
    rw [bind, courseBy_tell]
    exact hk a w
  | died told death w => rfl
  | asleep told due w next ih => exact congrArg (Course.asleep due w) (funext ih)

theorem courseBy_later {due : Time} {w : World} {next : World → Story α} {d : World → Course γ}
    (hnext : ∀ w, (next w).courseBy f = d w) :
    (later due w next).courseBy f = Course.later due w d := by
  unfold later Course.later
  split
  · exact hnext w
  · exact congrArg (Course.asleep due w) (funext hnext)

theorem courseBy_goOn (enough : Time → World → Bool) :
    (s.goOn enough).courseBy f = (s.courseBy f).goOn enough := by
  induction s with
  | ended told a w => rfl
  | died told death w => rfl
  | asleep told due w next ih =>
    rw [goOn, courseBy, Course.goOn]
    split
    · rfl
    · rw [courseBy_tell]
      exact ih _

theorem courseBy_background {time : Time} {b : Story Unit}
    {next : Option LateStory → World → Story β} {j : Option Late → World → Course δ}
    (hnext : ∀ late w, (next late w).courseBy h = j (late.map LateStory.late) w) :
    (b.background time next).courseBy h = (b.courseBy id).background time j := by
  induction b with
  | ended told u w =>
    rw [background, courseBy_tell]
    exact hnext none w
  | died told death w => rfl
  | asleep told due w rest ih =>
    rw [background, courseBy, Course.background]
    split
    · exact congrArg (Course.asleep due w) (funext ih)
    · rw [courseBy_tell]
      exact hnext (some ⟨due, rest⟩) w

/-- A result and what is left in the background, without the telling. -/
def besideBy (f : α → γ) (r : α × Option LateStory) : γ × Option Late :=
  (f r.1, r.2.map LateStory.late)

theorem courseBy_beside (late : Option LateStory) :
    (s.beside late).courseBy (besideBy f) = (s.courseBy f).beside (late.map LateStory.late) := by
  induction s generalizing late with
  | ended told a w => rfl
  | died told death w => rfl
  | asleep told due w next ih =>
    cases late with
    | none => exact congrArg (Course.asleep due w) (funext fun w => ih w none)
    | some l =>
      have wake : ∀ late w, (asleep [] due w fun w => (next w).beside late).courseBy (besideBy f) =
          .asleep due w fun w => ((next w).courseBy f).beside (late.map LateStory.late) :=
        fun late w => congrArg (Course.asleep due w) (funext fun w => ih w late)
      show (if l.due ≤ due then _ else _ : Story (α × Option LateStory)).courseBy _ =
        if l.due ≤ due then _ else _
      split
      · exact congrArg (Course.asleep l.due w) (funext fun w => courseBy_background wake)
      · rw [courseBy_tell]
        exact wake (some l) w

theorem courseBy_race {deadline : Time} {inTime : α → World → Story β}
    {expired : Time → (World → Story α) → World → Story β} {inTime' : γ → World → Course δ}
    {expired' : Time → (World → Course γ) → World → Course δ}
    (hinTime : ∀ a w, (inTime a w).courseBy h = inTime' (f a) w)
    (hexpired : ∀ due next w, (expired due next w).courseBy h =
      expired' due (fun w => (next w).courseBy f) w) :
    (s.race deadline inTime expired).courseBy h =
      (s.courseBy f).race deadline inTime' expired' := by
  induction s with
  | ended told a w =>
    rw [race, courseBy_tell]
    exact hinTime a w
  | died told death w => rfl
  | asleep told due w next ih =>
    rw [race, courseBy, Course.race]
    split
    · exact congrArg (Course.asleep due w) (funext ih)
    · exact congrArg (Course.asleep deadline w) (funext (hexpired due next))

theorem finish_courseBy :
    (s.courseBy f).finish = s.finish.2.map fun last => (f last.1, last.2) := by
  induction s with
  | ended told a w => rfl
  | died told death w => rfl
  | asleep told due w next ih => exact ih _

end Story

namespace LateStory

theorem late_beside (a b : LateStory) : (a.beside b).late = a.late.beside b.late := by
  have both : ∀ first second : LateStory,
      (LateStory.mk first.due fun w =>
        ((first.next w).beside (some second)).bind fun r w => storyOf r.2 w).late =
      Late.mk first.late.due fun w =>
        ((first.late.next w).beside (some second.late)).bind fun r w => Late.courseOf r.2 w := by
    intro first second
    refine congrArg (Late.mk first.due) (funext fun w => ?_)
    show (Story.bind _ _).courseBy id = _
    rw [Story.courseBy_bind (f := Story.besideBy id) (j := fun r w => Late.courseOf r.2 w) _
      (fun r w => courseBy_storyOf r.2 w), Story.courseBy_beside]
    rfl
  unfold beside Late.beside
  show (if a.due ≤ b.due then _ else _ : LateStory).late = if a.due ≤ b.due then _ else _
  split
  · exact both a b
  · exact both b a

theorem late_both (a b : Option LateStory) :
    (both a b).map LateStory.late = Late.both (a.map LateStory.late) (b.map LateStory.late) := by
  cases a with
  | none => rfl
  | some a =>
    cases b with
    | none => rfl
    | some b => exact congrArg some (late_beside a b)

end LateStory

end Course

end CapabilityGate
