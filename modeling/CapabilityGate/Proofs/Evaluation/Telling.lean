import CapabilityGate.Proofs.Evaluation.Narration
import CapabilityGate.Proofs.Evaluation.Stretch

/-!
# What may be told of a stretch

`Story.Obeys G Q w` judges a story stretch by stretch: `G` relates the world in which a stretch begins
to what is told of it and to the world that it leaves. As for courses nothing is assumed of the
others, so whatever world is found after a wait, the next stretch is judged from there. A judgement
that `Accrues` may be given piece by piece, and then stories that are put together obey it if their
parts do. `Story.Obeys.finish` adds the stretches up for a story with nobody else about.
-/
namespace CapabilityGate

/-- A judgement about stretches that holds of nothing happening and adds up. -/
class Accrues (G : World → List Event → World → Prop) : Prop where
  nil (w : World) : G w [] w
  append {u v w : World} {told later : List Event} :
    G u told v → G v later w → G u (told ++ later) w

variable {α β : Type} {G : World → List Event → World → Prop}

/-- **`s.Obeys G Q w`** — every stretch of a story that begins in `w` goes by `G`, and every result
that it can come to satisfies `Q`. -/
def Story.Obeys (G : World → List Event → World → Prop) (Q : α → Prop) : Story α → World → Prop
  | ended told a w', w => G w told w' ∧ Q a
  | died told _ w', w => G w told w'
  | asleep told _ w' next, w => G w told w' ∧ ∀ v, (next v).Obeys G Q v

/-- Work in the background goes by `G`, whatever world it wakes in. -/
def LateStory.Obeys (G : World → List Event → World → Prop) (l : LateStory) : Prop :=
  ∀ v, (l.next v).Obeys G (fun _ => True) v

/-- What goes on in the background, if anything, goes by `G`. -/
def LateStory.AllObey (G : World → List Event → World → Prop) (late : Option LateStory) : Prop :=
  ∀ l, late = some l → l.Obeys G

@[simp]
theorem LateStory.allObey_none : LateStory.AllObey G none := by
  simp [LateStory.AllObey]

@[simp]
theorem LateStory.allObey_some {l : LateStory} : LateStory.AllObey G (some l) ↔ l.Obeys G := by
  simp [LateStory.AllObey]

namespace Story

variable {Q P : α → Prop} {s : Story α} {told : List Event} {u v w : World}

/-- The world in which a story stands: where it ended, died or sleeps. -/
def world : Story α → World
  | ended _ _ w => w
  | died _ _ w => w
  | asleep _ _ w _ => w

theorem Obeys.first (h : s.Obeys G Q w) : G w s.told s.world := by
  cases s with
  | ended told a w' => exact h.1
  | died told death w' => exact h
  | asleep told due w' next => exact h.1

/-- Without the telling, a story obeys what its judgement says about worlds. -/
theorem Obeys.courseBy {R : World → World → Prop} {f : α → β} {P : β → Prop}
    (hR : ∀ u told v, G u told v → R u v) (hQ : ∀ a, Q a → P (f a)) (h : s.Obeys G Q w) :
    (s.courseBy f).Obeys R P w := by
  induction s generalizing w with
  | ended told a w' => exact ⟨hR _ _ _ h.1, hQ _ h.2⟩
  | died told death w' => exact hR _ _ _ h
  | asleep told due w' next ih => exact ⟨hR _ _ _ h.1, fun v => ih v (h.2 v)⟩

variable [hG : Accrues G]

/-! ## One story after the other -/

/-- What happens before a story belongs to its first stretch. -/
theorem Obeys.tell (before : G u told w) (h : s.Obeys G Q w) : (s.tell told).Obeys G Q u := by
  cases s with
  | ended told a w' => exact ⟨hG.append before h.1, h.2⟩
  | died told death w' => exact hG.append before h
  | asleep told due w' next => exact ⟨hG.append before h.1, h.2⟩

/-- A change of the world of which nothing is told belongs to the stretch that follows. -/
theorem Obeys.after (silent : G u [] w) (h : s.Obeys G Q w) : s.Obeys G Q u := by
  have same : s.tell [] = s := by cases s <;> rfl
  have told := h.tell silent
  rwa [same] at told

theorem Obeys.bind {P : β → Prop} {f : α → World → Story β} (h : s.Obeys G Q w)
    (hf : ∀ a v, Q a → (f a v).Obeys G P v) : (s.bind f).Obeys G P w := by
  induction s generalizing w with
  | ended told a w' => exact (hf a w' h.2).tell h.1
  | died told death w' => exact h
  | asleep told due w' next ih => exact ⟨h.1, fun v => ih v (h.2 v)⟩

theorem obeys_later {due : Time} {next : World → Story α} (h : ∀ v, (next v).Obeys G Q v) :
    (later due w next).Obeys G Q w := by
  unfold later
  split
  · exact h w
  · exact ⟨hG.nil w, h⟩

/-! ## Stories that share a world -/

theorem Obeys.background {time : Time} {next : Option LateStory → World → Story α}
    {b : Story Unit} (h : b.Obeys G (fun _ => True) w)
    (hnext : ∀ late v, LateStory.AllObey G late → (next late v).Obeys G Q v) :
    (b.background time next).Obeys G Q w := by
  induction b generalizing w with
  | ended told a w' => exact (hnext none w' LateStory.allObey_none).tell h.1
  | died told death w' => exact h
  | asleep told due w' rest ih =>
    unfold Story.background
    split
    · exact ⟨h.1, fun v => ih v (h.2 v)⟩
    · exact (hnext (some ⟨due, rest⟩) w' (LateStory.allObey_some.2 h.2)).tell h.1

theorem Obeys.beside {late : Option LateStory} (h : s.Obeys G Q w)
    (hl : LateStory.AllObey G late) :
    (s.beside late).Obeys G (fun r => Q r.1 ∧ LateStory.AllObey G r.2) w := by
  induction s generalizing w late with
  | ended told a w' => exact ⟨h.1, h.2, hl⟩
  | died told death w' => exact h
  | asleep told due w' next ih =>
    cases late with
    | none => exact ⟨h.1, fun v => ih v (h.2 v) hl⟩
    | some l =>
      have wake : ∀ late v, LateStory.AllObey G late →
          (asleep [] due v fun v => (next v).beside late).Obeys G
            (fun r => Q r.1 ∧ LateStory.AllObey G r.2) v :=
        fun late v hlate => ⟨hG.nil v, fun v => ih v (h.2 v) hlate⟩
      unfold Story.beside
      dsimp only
      split
      · exact ⟨h.1, fun v => (LateStory.allObey_some.1 hl v).background wake⟩
      · exact (wake _ w' hl).tell h.1

theorem Obeys.race {P : β → Prop} {deadline : Time} {inTime : α → World → Story β}
    {expired : Time → (World → Story α) → World → Story β} (h : s.Obeys G Q w)
    (hinTime : ∀ a v, Q a → (inTime a v).Obeys G P v)
    (hexpired : ∀ due next v, (∀ v, (next v).Obeys G Q v) → (expired due next v).Obeys G P v) :
    (s.race deadline inTime expired).Obeys G P w := by
  induction s generalizing w with
  | ended told a w' => exact (hinTime a w' h.2).tell h.1
  | died told death w' => exact h
  | asleep told due w' next ih =>
    unfold Story.race
    split
    · exact ⟨h.1, fun v => ih v (h.2 v)⟩
    · exact ⟨h.1, fun v => hexpired due next v h.2⟩

/-! ## Following a story -/

/-- With nobody else about only time passes while a story sleeps. -/
theorem Obeys.goOn {enough : Time → World → Bool} (hreach : ∀ w t, G w [] (w.reach t))
    (h : s.Obeys G Q w) : (s.goOn enough).Obeys G Q w := by
  induction s generalizing w with
  | ended told a w' => exact h
  | died told death w' => exact h
  | asleep told due w' next ih =>
    unfold Story.goOn
    split
    · exact h
    · exact ((ih _ (h.2 _)).after (hreach w' due)).tell h.1

/-- The world in which a story ends, in one way or the other. -/
def lastWorld : Except (Death × World) (α × World) → World
  | .ok (_, w) => w
  | .error (_, w) => w

theorem Obeys.finish (hreach : ∀ w t, G w [] (w.reach t)) (h : s.Obeys G Q w) :
    G w s.finish.1 (lastWorld s.finish.2) := by
  induction s generalizing w with
  | ended told a w' => exact h.1
  | died told death w' => exact h
  | asleep told due w' next ih =>
    have rest := ih (w'.reach due) (h.2 (w'.reach due))
    have whole := hG.append h.1 (hG.append (hreach w' due) rest)
    exact whole

end Story

/-! ## Work in the background -/

namespace LateStory

variable [hG : Accrues G] {late other : Option LateStory}

theorem AllObey.storyOf (h : AllObey G late) (w : World) :
    (storyOf late w).Obeys G (fun _ => True) w := by
  cases late with
  | none => exact ⟨hG.nil w, trivial⟩
  | some l => exact ⟨hG.nil w, allObey_some.1 h⟩

theorem Obeys.beside {a b : LateStory} (ha : a.Obeys G) (hb : b.Obeys G) :
    (a.beside b).Obeys G := by
  have both : ∀ first second : LateStory, first.Obeys G → second.Obeys G →
      LateStory.Obeys G ⟨first.due, fun w =>
        ((first.next w).beside (some second)).bind fun r w => LateStory.storyOf r.2 w⟩ :=
    fun first second hf hs v =>
      ((hf v).beside (allObey_some.2 hs)).bind fun r v hr => hr.2.storyOf v
  unfold LateStory.beside
  dsimp only
  split
  · exact both a b ha hb
  · exact both b a hb ha

theorem AllObey.both (h : AllObey G late) (h' : AllObey G other) :
    AllObey G (LateStory.both late other) := by
  cases late with
  | none => exact h'
  | some a =>
    cases other with
    | none => exact h
    | some b => exact allObey_some.2 ((allObey_some.1 h).beside (allObey_some.1 h'))

end LateStory

end CapabilityGate
