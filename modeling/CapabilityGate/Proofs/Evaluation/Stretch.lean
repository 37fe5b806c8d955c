import CapabilityGate.Gate.Activity
import Mathlib.Order.Defs.Unbundled

/-!
# Stretches of a course

A course waits, and whoever shares its world may change it meanwhile. What the course itself answers
for is each *stretch*, from the world that it finds to the world that it leaves at its next wait or
at its end. `Course.Obeys R Q w` says that every stretch is in the relation `R`, whatever world is
found after each wait, and that a result satisfies `Q`. Nothing is assumed of the others, so two
courses that obey one transitive relation also obey it while they share a world.

Main statements: `Course.Obeys.bind` for one course after the other, `Course.Obeys.beside` and
`Course.Obeys.race` for the two ways of going on together, and `Course.Obeys.goOn` for a course that
is followed with nobody else about.
-/
namespace CapabilityGate

variable {α β : Type} {R S : World → World → Prop}

/-- **`c.Obeys R Q w`** — every stretch of a course that begins in `w` is in `R`, and every result
that it can come to satisfies `Q`. -/
def Course.Obeys (R : World → World → Prop) (Q : α → Prop) : Course α → World → Prop
  | ended a w', w => R w w' ∧ Q a
  | died _ w', w => R w w'
  | asleep _ w' next, w => R w w' ∧ ∀ v, (next v).Obeys R Q v

/-- Work in the background obeys a relation, whatever world it wakes in. -/
def Late.Obeys (R : World → World → Prop) (l : Late) : Prop :=
  ∀ v, (l.next v).Obeys R (fun _ => True) v

/-- What goes on in the background, if anything, obeys a relation. -/
def Late.AllObey (R : World → World → Prop) (late : Option Late) : Prop :=
  ∀ l, late = some l → l.Obeys R

@[simp]
theorem Late.allObey_none : Late.AllObey R none := by
  simp [Late.AllObey]

@[simp]
theorem Late.allObey_some {l : Late} : Late.AllObey R (some l) ↔ l.Obeys R := by
  simp [Late.AllObey]

namespace Course

variable {Q P : α → Prop} {c : Course α} {u w : World}

/-- A coarser relation and a weaker condition on results. -/
theorem Obeys.mono (hR : ∀ u v, R u v → S u v) (hQ : ∀ a, Q a → P a) (h : c.Obeys R Q w) :
    c.Obeys S P w := by
  induction c generalizing w with
  | ended a w' => exact ⟨hR _ _ h.1, hQ _ h.2⟩
  | died death w' => exact hR _ _ h
  | asleep due w' next ih => exact ⟨hR _ _ h.1, fun v => ih v (h.2 v)⟩

/-- The world in which a course stands: where it ended, died or sleeps. -/
def world : Course α → World
  | ended _ w => w
  | died _ w => w
  | asleep _ w _ => w

theorem Obeys.world (h : c.Obeys R Q w) : R w c.world := by
  cases c with
  | ended a w' => exact h.1
  | died death w' => exact h
  | asleep due w' next => exact h.1

/-! ## One course after the other -/

section Preorder

variable [IsPreorder World R]

/-- What leads to the world in which a course begins belongs to its first stretch. -/
theorem Obeys.after (huw : R u w) (h : c.Obeys R Q w) : c.Obeys R Q u := by
  cases c with
  | ended a w' => exact ⟨trans_of R huw h.1, h.2⟩
  | died death w' => exact trans_of R huw h
  | asleep due w' next => exact ⟨trans_of R huw h.1, h.2⟩

theorem Obeys.bind {P : β → Prop} {f : α → World → Course β} (h : c.Obeys R Q w)
    (hf : ∀ a v, Q a → (f a v).Obeys R P v) : (c.bind f).Obeys R P w := by
  induction c generalizing w with
  | ended a w' => exact (hf a w' h.2).after h.1
  | died death w' => exact h
  | asleep due w' next ih => exact ⟨h.1, fun v => ih v (h.2 v)⟩

/-- Going on at a time that may have come already. -/
theorem obeys_later {due : Time} {next : World → Course α} (huw : R u w)
    (h : ∀ v, (next v).Obeys R Q v) : (later due w next).Obeys R Q u := by
  unfold later
  split
  · exact (h w).after huw
  · exact ⟨huw, h⟩

/-! ## Courses that share a world -/

theorem Obeys.background {time : Time} {next : Option Late → World → Course α} {b : Course Unit}
    (h : b.Obeys R (fun _ => True) w)
    (hnext : ∀ late v, Late.AllObey R late → (next late v).Obeys R Q v) :
    (b.background time next).Obeys R Q w := by
  induction b generalizing w with
  | ended a w' => exact (hnext none w' Late.allObey_none).after h.1
  | died death w' => exact h
  | asleep due w' rest ih =>
    unfold Course.background
    split
    · exact ⟨h.1, fun v => ih v (h.2 v)⟩
    · exact (hnext (some ⟨due, rest⟩) w' (Late.allObey_some.2 h.2)).after h.1

/-- A course and what goes on beside it answer for their own stretches only, so nothing has to be
known about the way in which they alternate. -/
theorem Obeys.beside {late : Option Late} (h : c.Obeys R Q w) (hl : Late.AllObey R late) :
    (c.beside late).Obeys R (fun r => Q r.1 ∧ Late.AllObey R r.2) w := by
  induction c generalizing w late with
  | ended a w' => exact ⟨h.1, h.2, hl⟩
  | died death w' => exact h
  | asleep due w' next ih =>
    cases late with
    | none => exact ⟨h.1, fun v => ih v (h.2 v) hl⟩
    | some l =>
      have wake : ∀ late v, Late.AllObey R late →
          (asleep due v fun v => (next v).beside late).Obeys R
            (fun r => Q r.1 ∧ Late.AllObey R r.2) v :=
        fun late v hlate => ⟨refl_of R v, fun v => ih v (h.2 v) hlate⟩
      unfold Course.beside
      dsimp only
      split
      · exact ⟨h.1, fun v => (Late.allObey_some.1 hl v).background wake⟩
      · exact (wake _ w' hl).after h.1

theorem Obeys.race {P : β → Prop} {deadline : Time} {inTime : α → World → Course β}
    {expired : Time → (World → Course α) → World → Course β} (h : c.Obeys R Q w)
    (hinTime : ∀ a v, Q a → (inTime a v).Obeys R P v)
    (hexpired : ∀ due next v, (∀ v, (next v).Obeys R Q v) → (expired due next v).Obeys R P v) :
    (c.race deadline inTime expired).Obeys R P w := by
  induction c generalizing w with
  | ended a w' => exact (hinTime a w' h.2).after h.1
  | died death w' => exact h
  | asleep due w' next ih =>
    unfold Course.race
    split
    · exact ⟨h.1, fun v => ih v (h.2 v)⟩
    · exact ⟨h.1, fun v => hexpired due next v h.2⟩

theorem Obeys.map {P : β → Prop} {f : α → β} (h : c.Obeys R Q w) (hf : ∀ a, Q a → P (f a)) :
    (c.map f).Obeys R P w :=
  h.bind fun a v ha => ⟨refl_of R v, hf a ha⟩

/-! ## Following a course -/

theorem Obeys.goOn {enough : Time → World → Bool} (hreach : ∀ w t, R w (w.reach t))
    (h : c.Obeys R Q w) : (c.goOn enough).Obeys R Q w := by
  induction c generalizing w with
  | ended a w' => exact h
  | died death w' => exact h
  | asleep due w' next ih =>
    unfold Course.goOn
    split
    · exact h
    · exact (ih (w'.reach due) (h.2 (w'.reach due))).after (trans_of R h.1 (hreach w' due))

theorem Obeys.finish {a : α} {w' : World} (hreach : ∀ w t, R w (w.reach t)) (h : c.Obeys R Q w)
    (hend : c.finish = .ok (a, w')) : R w w' ∧ Q a := by
  induction c generalizing w with
  | ended b v =>
    cases hend
    exact h
  | died death v => cases hend
  | asleep due v next ih =>
    obtain ⟨hworld, ha⟩ := ih (v.reach due) (h.2 (v.reach due)) hend
    exact ⟨trans_of R (trans_of R h.1 (hreach v due)) hworld, ha⟩

/-- A race that is followed to its end is decided in a world that the stretches before it lead to. -/
theorem Obeys.finish_race {deadline : Time} {inTime : α → World → Course β}
    {expired : Time → (World → Course α) → World → Course β} {b : β} {w' : World}
    (hreach : ∀ w t, R w (w.reach t)) (h : c.Obeys R Q w)
    (hend : (c.race deadline inTime expired).finish = .ok (b, w')) :
    (∃ a v, R w v ∧ Q a ∧ (inTime a v).finish = .ok (b, w')) ∨
      ∃ due next v, R w v ∧ (expired due next v).finish = .ok (b, w') := by
  induction c generalizing w with
  | ended a v => exact .inl ⟨a, v, h.1, h.2, hend⟩
  | died death v => cases hend
  | asleep due v next ih =>
    unfold Course.race at hend
    split at hend
    · rcases ih (v.reach due) (h.2 (v.reach due)) hend with
        ⟨a, u, hu, ha, inTime⟩ | ⟨due', next', u, hu, expired⟩
      · exact .inl ⟨a, u, trans_of R (trans_of R h.1 (hreach v due)) hu, ha, inTime⟩
      · exact .inr ⟨due', next', u, trans_of R (trans_of R h.1 (hreach v due)) hu, expired⟩
    · exact .inr ⟨due, next, v.reach deadline, trans_of R h.1 (hreach v deadline), hend⟩

end Preorder

end Course

/-! ## Work in the background -/

namespace Late

variable [IsPreorder World R] {late other : Option Late}

theorem AllObey.courseOf (h : AllObey R late) (w : World) :
    (courseOf late w).Obeys R (fun _ => True) w := by
  cases late with
  | none => exact ⟨refl_of R w, trivial⟩
  | some l => exact ⟨refl_of R w, allObey_some.1 h⟩

theorem Obeys.beside {a b : Late} (ha : a.Obeys R) (hb : b.Obeys R) : (a.beside b).Obeys R := by
  have both : ∀ first second : Late, first.Obeys R → second.Obeys R →
      Late.Obeys R ⟨first.due, fun w =>
        ((first.next w).beside (some second)).bind fun r w => Late.courseOf r.2 w⟩ :=
    fun first second hf hs v =>
      ((hf v).beside (allObey_some.2 hs)).bind fun r v hr => hr.2.courseOf v
  unfold Late.beside
  dsimp only
  split
  · exact both a b ha hb
  · exact both b a hb ha

theorem AllObey.both (h : AllObey R late) (h' : AllObey R other) :
    AllObey R (Late.both late other) := by
  cases late with
  | none => exact h'
  | some a =>
    cases other with
    | none => exact h
    | some b => exact allObey_some.2 ((allObey_some.1 h).beside (allObey_some.1 h'))

end Late

end CapabilityGate
