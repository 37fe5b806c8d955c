import CapabilityGate.Gate.Activity

/-!
# Courses in lockstep

Two evaluations that begin in different worlds may never notice the difference. `Course.InStep R Q`
says so of two courses: they wait at the same times, die of the same, and come to results that are in
`Q`; and as long as they wake in worlds that are in `R`, they leave worlds that are in `R`. Whoever
shares the two worlds may therefore change them in any way that `R` allows. The ways to put courses
together keep this, the ones with work in the background included, and so do those of activities.
-/
namespace CapabilityGate

variable {α β : Type} {R : World → World → Prop} {Q : α → α → Prop} {P : β → β → Prop}

/-- **`c.InStep R Q d`** — the two courses go the same way in worlds related by `R`, to results
related by `Q`. -/
inductive Course.InStep (R : World → World → Prop) (Q : α → α → Prop) : Course α → Course α → Prop
  | ended {a b : α} {w v : World} : R w v → Q a b → InStep R Q (.ended a w) (.ended b v)
  | died {death : Death} {w v : World} : R w v → InStep R Q (.died death w) (.died death v)
  | asleep {due : Time} {w v : World} {next next' : World → Course α} :
      R w v → (∀ w v, R w v → InStep R Q (next w) (next' v)) →
      InStep R Q (.asleep due w next) (.asleep due v next')

/-- Two courses in the background are in step. -/
structure Late.InStep (R : World → World → Prop) (l l' : Late) : Prop where
  due : l.due = l'.due
  next : ∀ w v, R w v → (l.next w).InStep R (fun _ _ => True) (l'.next v)

namespace Course.InStep

variable {c d : Course α} {late late' : Option Late} {w v : World}

/-! ## One course after the other -/

theorem bind {f g : α → World → Course β} (h : c.InStep R Q d)
    (hnext : ∀ a b w v, Q a b → R w v → (f a w).InStep R P (g b v)) :
    (c.bind f).InStep R P (d.bind g) := by
  induction h with
  | ended hwv hab => exact hnext _ _ _ _ hab hwv
  | died hwv => exact .died hwv
  | asleep hwv _ ih => exact .asleep hwv ih

/-- Going on at a time that may have come already. -/
theorem later {due : Time} {next next' : World → Course α} (hwv : R w v) (clock : w.clock = v.clock)
    (hnext : ∀ w v, R w v → (next w).InStep R Q (next' v)) :
    (Course.later due w next).InStep R Q (Course.later due v next') := by
  unfold Course.later
  rw [clock]
  split
  · exact hnext w v hwv
  · exact .asleep hwv hnext

/-! ## Courses that share a world -/

theorem background {b b' : Course Unit} {time : Time} {next next' : Option Late → World → Course α}
    (h : b.InStep R (fun _ _ => True) b')
    (hnext : ∀ late late' w v, Option.Rel (Late.InStep R) late late' → R w v →
      (next late w).InStep R Q (next' late' v)) :
    (b.background time next).InStep R Q (b'.background time next') := by
  induction h with
  | ended hwv => exact hnext none none _ _ .none hwv
  | died hwv => exact .died hwv
  | asleep hwv hrest ih =>
    unfold Course.background
    split
    · exact .asleep hwv ih
    · exact hnext _ _ _ _ (.some ⟨rfl, hrest⟩) hwv

theorem beside (h : c.InStep R Q d) (hl : Option.Rel (Late.InStep R) late late') :
    (c.beside late).InStep R (fun r s => Q r.1 s.1 ∧ Option.Rel (Late.InStep R) r.2 s.2)
      (d.beside late') := by
  induction h generalizing late late' with
  | ended hwv hab => exact .ended hwv ⟨hab, hl⟩
  | died hwv => exact .died hwv
  | asleep hwv _ ih =>
    cases hl with
    | none => exact .asleep hwv fun w v hwv => ih w v hwv .none
    | some hl =>
      unfold Course.beside
      dsimp only
      rw [hl.due]
      split
      · refine .asleep hwv fun w v hwv => (hl.next w v hwv).background ?_
        exact fun late late' w v hlate hwv => .asleep hwv fun w v hwv => ih w v hwv hlate
      · exact .asleep hwv fun w v hwv => ih w v hwv (.some hl)

theorem race {deadline : Time} {inTime inTime' : α → World → Course β}
    {expired expired' : Time → (World → Course α) → World → Course β} (h : c.InStep R Q d)
    (hinTime : ∀ a b w v, Q a b → R w v → (inTime a w).InStep R P (inTime' b v))
    (hexpired : ∀ due next next' w v, (∀ w v, R w v → (next w).InStep R Q (next' v)) → R w v →
      (expired due next w).InStep R P (expired' due next' v)) :
    (c.race deadline inTime expired).InStep R P (d.race deadline inTime' expired') := by
  induction h with
  | ended hwv hab => exact hinTime _ _ _ _ hab hwv
  | died hwv => exact .died hwv
  | asleep hwv hnext ih =>
    unfold Course.race
    split
    · exact .asleep hwv ih
    · exact .asleep hwv fun w v hwv => hexpired _ _ _ w v hnext hwv

/-! ## Following two courses -/

theorem goOn (enough : Time → Bool) (hreach : ∀ w v t, R w v → R (w.reach t) (v.reach t))
    (h : c.InStep R Q d) :
    (c.goOn fun due _ => enough due).InStep R Q (d.goOn fun due _ => enough due) := by
  induction h with
  | ended hwv hab => exact .ended hwv hab
  | died hwv => exact .died hwv
  | asleep hwv hnext ih =>
    unfold Course.goOn
    split
    · exact .asleep hwv hnext
    · exact ih _ _ (hreach _ _ _ hwv)

/-- Two courses that are followed to their ends come to the same there. -/
theorem finish (hreach : ∀ w v t, R w v → R (w.reach t) (v.reach t)) (h : c.InStep R Q d) :
    match c.finish, d.finish with
    | .ok (a, w), .ok (b, v) => Q a b ∧ R w v
    | .error (death, w), .error (death', v) => death = death' ∧ R w v
    | _, _ => False := by
  induction h with
  | ended hwv hab => exact ⟨hab, hwv⟩
  | died hwv => exact ⟨rfl, hwv⟩
  | asleep hwv _ ih => exact ih _ _ (hreach _ _ _ hwv)

end Course.InStep

/-! ## Work in the background -/

namespace Late

variable {late late' other other' : Option Late} {w v : World}

theorem courseOf_inStep (h : Option.Rel (InStep R) late late') (hwv : R w v) :
    (courseOf late w).InStep R (fun _ _ => True) (courseOf late' v) := by
  cases h with
  | none => exact .ended hwv trivial
  | some hl =>
    unfold courseOf Late.course
    dsimp only
    rw [hl.due]
    exact .asleep hwv hl.next

theorem InStep.beside {a a' b b' : Late} (ha : a.InStep R a') (hb : b.InStep R b') :
    (a.beside b).InStep R (a'.beside b') := by
  have both : ∀ first first' second second' : Late, first.InStep R first' →
      second.InStep R second' →
      Late.InStep R
        ⟨first.due, fun w =>
          ((first.next w).beside (some second)).bind fun r w => courseOf r.2 w⟩
        ⟨first'.due, fun w =>
          ((first'.next w).beside (some second')).bind fun r w => courseOf r.2 w⟩ := by
    intro first first' second second' hf hs
    refine ⟨hf.due, fun w v hwv => ?_⟩
    refine ((hf.next w v hwv).beside (.some hs)).bind fun r r' w v hr hwv => ?_
    exact courseOf_inStep hr.2 hwv
  unfold Late.beside
  dsimp only
  by_cases first : a.due ≤ b.due
  · rw [if_pos first, if_pos (ha.due ▸ hb.due ▸ first)]
    exact both a a' b b' ha hb
  · rw [if_neg first, if_neg (ha.due ▸ hb.due ▸ first)]
    exact both b b' a a' hb ha

theorem both_inStep (h : Option.Rel (InStep R) late late')
    (h' : Option.Rel (InStep R) other other') :
    Option.Rel (InStep R) (both late other) (both late' other') := by
  cases h with
  | none => exact h'
  | some hl =>
    cases h' with
    | none => exact .some hl
    | some ho => exact .some (hl.beside ho)

end Late

/-! ## Activities -/

/-- Both threads come to the same and are given back as they were, and what they leave in the
background is in step. -/
structure Return.InStep (R : World → World → Prop) (t : Thread) (r s : Return α) : Prop where
  result : r.result = s.result
  thread : r.thread = t ∧ s.thread = t
  late : Option.Rel (Late.InStep R) r.late s.late

/-- **`x.InStep R K`** — the activity goes the same way in worlds related by `R`, on every thread
whose register satisfies `K`. -/
def Activity.InStep (R : World → World → Prop) (K : Register → Prop) (x : Activity α) : Prop :=
  ∀ w v t, K t.register → R w v → (x ⟨w, t⟩).InStep R (Return.InStep R t) (x ⟨v, t⟩)

theorem Course.InStep.joined {c d : Course (Return α)} {t : Thread} {late late' : Option Late}
    (h : c.InStep R (Return.InStep R t) d) (hl : Option.Rel (Late.InStep R) late late') :
    (c.joined late).InStep R (Return.InStep R t) (d.joined late') := by
  cases hl with
  | none => exact h
  | some hl =>
    refine (h.beside (.some hl)).bind fun r s w v hrs hwv => ?_
    exact .ended hwv ⟨hrs.1.result, hrs.1.thread, Late.both_inStep hrs.1.late hrs.2⟩

namespace Activity

variable {K : Register → Prop}

theorem inStep_pure (a : α) : (pure a).InStep R K :=
  fun _ _ _ _ hwv => .ended hwv ⟨rfl, ⟨rfl, rfl⟩, .none⟩

theorem inStep_refuse (f : Fault) : (refuse f).InStep R K :=
  inStep_pure _

theorem InStep.bind {x : Activity α} {f : α → Activity β} (hx : x.InStep R K)
    (hf : ∀ a, (f a).InStep R K) : (x.bind f).InStep R K := by
  intro w v t known hwv
  refine Course.InStep.bind (hx w v t known hwv) fun r s w v hrs hwv => ?_
  obtain ⟨result, ⟨thread, thread'⟩, late⟩ := hrs
  rw [result, thread, thread']
  exact (hf s.result w v t known hwv).joined late

theorem InStep.andThen {x : Activity Ending} {f : Result → Activity Ending} (hx : x.InStep R K)
    (hf : ∀ r, (f r).InStep R K) : (x.andThen f).InStep R K := by
  refine hx.bind fun ending => ?_
  cases ending with
  | returned result => exact hf result
  | panicked message => exact inStep_pure _

/-- Within an activation the register is known, whatever it was before. -/
theorem InStep.activated {x : Activity α} (hx : x.InStep R K) (context : ContextId)
    (revocation : Option Revocation) (hknown : ∀ r : Register, K (r.activate context revocation))
    (hactivate : ∀ w v t, R w v → R (Machine.activate ⟨w, t⟩ context revocation).world
      (Machine.activate ⟨v, t⟩ context revocation).world)
    (hrelease : ∀ w v : World, R w v → R (w.release context) (v.release context)) :
    (x.activated context revocation).InStep R fun _ => True := by
  intro w v t _ hwv
  have inside := hx _ _ { t with register := t.register.activate context revocation }
    (hknown t.register) (hactivate w v t hwv)
  refine Course.InStep.bind inside fun r s w v hrs hwv => .ended (hrelease w v hwv) ?_
  refine ⟨hrs.result, ⟨?_, ?_⟩, hrs.late⟩
  · simp [Machine.restore, hrs.thread.1]
  · simp [Machine.restore, hrs.thread.2]

theorem InStep.counted {x : Activity α} (hx : x.InStep R K) : x.counted.InStep R K := by
  intro w v t known hwv
  have inside := hx w v { t with depth := t.depth + 1 } known hwv
  refine Course.InStep.bind inside fun r s w v hrs hwv => .ended hwv ?_
  refine ⟨hrs.result, ⟨?_, ?_⟩, hrs.late⟩
  · simp [Machine.leave, hrs.thread.1]
  · simp [Machine.leave, hrs.thread.2]

/-- What holds on every thread holds on those that are known. -/
theorem InStep.onKnown {x : Activity α} (hx : x.InStep R fun _ => True) : x.InStep R K :=
  fun w v t _ hwv => hx w v t trivial hwv

end Activity

end CapabilityGate
