import CapabilityGate.Gate.Activity

/-!
# Two courses side by side

One unit may run in two worlds that are not the same but look the same to it. `Course.Alike R Q`
follows two such courses: they wait at the same times, and as long as they find worlds that are in
`R` after each wait, they leave worlds that are in `R`, and come to results that are in `Q`. Neither
of them dies. Each way to put courses together keeps this, and `Course.Alike.race` compares a course
that is set against a deadline with one that is followed to the same deadline.
-/
namespace CapabilityGate

variable {α β γ δ : Type} {R : World → World → Prop} {Q : α → β → Prop}

/-- **`c.Alike R Q d`** — the two courses wait at the same times, in worlds related by `R`, and come
to results related by `Q`, as long as they wake in worlds related by `R`. -/
def Course.Alike (R : World → World → Prop) (Q : α → β → Prop) : Course α → Course β → Prop
  | ended a w, ended b v => R w v ∧ Q a b
  | asleep due w next, asleep due' v next' =>
    due = due' ∧ R w v ∧ ∀ w v, R w v → (next w).Alike R Q (next' v)
  | _, _ => False

namespace Course.Alike

variable {c : Course α} {d : Course β}

theorem bind {P : γ → δ → Prop} {f : α → World → Course γ} {g : β → World → Course δ}
    (h : c.Alike R Q d)
    (hnext : ∀ a b w v, Q a b → R w v → (f a w).Alike R P (g b v)) :
    (c.bind f).Alike R P (d.bind g) := by
  induction c generalizing d with
  | ended a w =>
    cases d with
    | ended b v => exact hnext a b w v h.2 h.1
    | died | asleep => exact h.elim
  | died death w => cases d <;> exact h.elim
  | asleep due w next ih =>
    cases d with
    | asleep due' v next' => exact ⟨h.1, h.2.1, fun w v hwv => ih w (h.2.2 w v hwv)⟩
    | ended | died => exact h.elim

/-- Going on at a time that may have come already. -/
theorem later {due : Time} {w v : World} {next : World → Course α} {next' : World → Course β}
    (hwv : R w v) (clock : w.clock = v.clock)
    (hnext : ∀ w v, R w v → (next w).Alike R Q (next' v)) :
    (Course.later due w next).Alike R Q (Course.later due v next') := by
  unfold Course.later
  rw [clock]
  split
  · exact hnext w v hwv
  · exact ⟨rfl, hwv, hnext⟩

/-- One course is raced against a deadline and the other is followed up to it: both end in time, or
both are still asleep then. -/
theorem race (h : c.Alike R Q d) (deadline : Time) (inTime : α → World → Course γ)
    (expired : Time → (World → Course α) → World → Course γ)
    (hreach : ∀ due < deadline, ∀ w v : World, R w v → R (w.reach due) (v.reach due)) :
    (∃ a b w v, Q a b ∧ R w v ∧
      (c.race deadline inTime expired).finish = (inTime a w).finish ∧
      d.goOn (fun due _ => deadline ≤ due) = .ended b v) ∨
    ∃ (due : Time) (next : World → Course α) (w : World) (due' : Time) (v : World)
        (next' : World → Course β),
      (c.race deadline inTime expired).finish = (expired due next (w.reach deadline)).finish ∧
      d.goOn (fun due _ => deadline ≤ due) = .asleep due' v next' := by
  induction c generalizing d with
  | ended a w =>
    cases d with
    | ended b v => exact .inl ⟨a, b, w, v, h.2, h.1, rfl, rfl⟩
    | died | asleep => exact h.elim
  | died death w => cases d <;> exact h.elim
  | asleep due w next ih =>
    cases d with
    | ended | died => exact h.elim
    | asleep due' v next' =>
      obtain ⟨rfl, hwv, hnext⟩ := h
      by_cases early : due < deadline
      · have late : ¬ deadline ≤ due := Nat.not_le_of_lt early
        have rest := ih (w.reach due) (hnext _ _ (hreach due early w v hwv))
        simpa only [Course.race, early, if_true, Course.finish, Course.goOn, late, decide_false,
          Bool.false_eq_true, if_false] using rest
      · have late : deadline ≤ due := Nat.le_of_not_lt early
        refine .inr ⟨due, next, w, due, v, next', ?_, ?_⟩
        · simp only [Course.race, early, if_false, Course.finish]
        · simp only [Course.goOn, late, decide_true, if_true]

end Course.Alike

end CapabilityGate
