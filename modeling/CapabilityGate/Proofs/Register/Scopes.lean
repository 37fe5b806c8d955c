import CapabilityGate.Proofs.Register.Custody

/-!
# Contexts and the guards that keep them

A guard puts back what was active when it was made, whether or not that is of a guard which is still
kept. So a context can be seen after its guard is gone, if guards are dropped in an unlucky order;
`contexts_within_guards` says exactly when it can. Nothing of the kind happens as long as a guard is
kept for as long as the guards made over it, and in particular if guards are dropped in the reverse
order of their making.
-/
namespace CapabilityGate

namespace Ledger

/-- **`l.Sheltered`** — what is visible is a context that a guard still kept has installed. -/
def Sheltered (l : Ledger) : Prop :=
  ∀ c, l.custody.current = some c → ∃ n, l.custody.Keeps n ∧ l.installed n = some c

/-- **`l.LandsSheltered number`** — dropping the guard brings back nothing, or something whose
switch has been thrown, or a context that another guard still kept has installed. -/
def LandsSheltered (l : Ledger) (number : Nat) : Prop :=
  l.custody.Keeps number → ∀ o, l.noted (l.beneath number) = some o →
    (∃ q, o.switch = some q ∧ q ∈ l.custody.revoked) ∨
      ∃ n, n ≠ number ∧ l.custody.Keeps n ∧ l.installed n = some o.context

/-- **`l.LandsOnKept number`** — what the guard was made over is of a guard that is still kept. -/
def LandsOnKept (l : Ledger) (number : Nat) : Prop :=
  l.custody.Keeps number → ∀ n, l.beneath number = some n → l.custody.Keeps n

/-- What is visible is in force, and its switch has not been thrown. -/
theorem Sound.current_eq_some_iff {l : Ledger} (sound : l.Sound) (c : ContextId) :
    l.custody.current = some c ↔
      ∃ o, l.noted l.inForce = some o ∧ o.context = c ∧
        ∀ q, o.switch = some q → q ∉ l.custody.revoked := by
  rw [Custody.current_eq_some_iff, sound.register_eq]
  simp [Opening.activation]

/-! ## What is visible after a deed -/

/-- A new context is installed by the guard that is made with it. -/
theorem Sound.sheltered_activate {l : Ledger} (sound : l.Sound) (context : ContextId)
    (own : Option Revocation) : (l.step (.activate context own)).Sheltered := by
  intro c visible
  obtain ⟨o, note, rfl, -⟩ := ((sound.activate context own).current_eq_some_iff c).mp visible
  refine ⟨l.openings.length, ?_, congrArg (Option.map Opening.context) note⟩
  exact ⟨⟨l.custody.guarded.next, l.custody.guarded.register⟩, List.mem_cons_self,
    sound.counted.symm⟩

/-- Throwing a switch makes nothing visible. -/
theorem Sheltered.revoke {l : Ledger} (sheltered : l.Sheltered) (sound : l.Sound)
    (switch : Revocation) : (l.step (.revoke switch)).Sheltered := by
  intro c visible
  obtain ⟨o, note, same, live⟩ := ((sound.step (.revoke switch)).current_eq_some_iff c).mp visible
  refine sheltered c ((sound.current_eq_some_iff c).mpr ⟨o, note, same, ?_⟩)
  intro q answers thrown
  exact live q answers (List.mem_cons_of_mem _ thrown)

theorem Sheltered.drop_iff {l : Ledger} (sheltered : l.Sheltered) (sound : l.Sound)
    (number : Nat) : (l.step (.drop number)).Sheltered ↔ l.LandsSheltered number := by
  by_cases kept : l.custody.Keeps number
  · have seen : ∀ c, (l.step (.drop number)).custody.current = some c ↔
        ∃ o, l.noted (l.beneath number) = some o ∧ o.context = c ∧
          ∀ q, o.switch = some q → q ∉ l.custody.revoked := by
      intro c
      rw [(sound.drop number).current_eq_some_iff, inForce_drop kept, custody_step,
        Custody.revoked_drop]
      rfl
    have others : ∀ n, (l.step (.drop number)).custody.Keeps n ↔ n ≠ number ∧ l.custody.Keeps n :=
      fun _ => sound.keeps_drop_iff
    constructor
    · intro after _ o note
      by_cases thrown : ∃ q, o.switch = some q ∧ q ∈ l.custody.revoked
      · exact .inl thrown
      · have live : ∀ q, o.switch = some q → q ∉ l.custody.revoked :=
          fun q answers member => thrown ⟨q, answers, member⟩
        obtain ⟨n, keeps, installs⟩ := after o.context ((seen _).mpr ⟨o, note, rfl, live⟩)
        obtain ⟨other, before⟩ := (others n).mp keeps
        exact .inr ⟨n, other, before, installs⟩
    · intro lands c visible
      obtain ⟨o, note, rfl, live⟩ := (seen c).mp visible
      rcases lands kept o note with ⟨q, answers, thrown⟩ | ⟨n, other, keeps, installs⟩
      · exact absurd thrown (live q answers)
      · exact ⟨n, (others n).mpr ⟨other, keeps⟩, installs⟩
  · rw [step_drop_of_not_keeps kept]
    exact ⟨fun _ there => absurd there kept, fun _ => sheltered⟩

/-- What is visible is sheltered all along exactly if every drop lands sheltered. -/
theorem sheltered_throughout_iff (history : List Deed) :
    (∀ before, before <+: history → (after before).Sheltered) ↔
      AtEachDrop (fun before number => (after before).LandsSheltered number) history := by
  induction history using List.reverseRecOn with
  | nil =>
    refine ⟨fun _ => atEachDrop_of_no_drop (by simp), fun _ before start => ?_⟩
    rw [List.prefix_nil.mp start]
    intro c visible
    cases visible
  | append_singleton history d ih =>
    have split : (∀ before, before <+: history ++ [d] → (after before).Sheltered) ↔
        (∀ before, before <+: history → (after before).Sheltered) ∧
          ((after history).step d).Sheltered := by
      simp only [List.prefix_concat_iff, or_imp, forall_and, forall_eq, after_concat]
      exact and_comm
    rw [split, atEachDrop_concat, ← ih]
    -- Only the drop of a guard can bring back what is not sheltered.
    refine and_congr_right fun earlier => ?_
    have sheltered := earlier history List.prefix_rfl
    have sound := sound_after history
    cases d with
    | activate context own => simp [sound.sheltered_activate context own]
    | drop number => simp [sheltered.drop_iff sound number]
    | revoke switch => simp [sheltered.revoke sound switch]

/-! ## What is active once the guards made since are dropped -/

/-- A guard that is kept and is not a new one has been kept all the time: numbers are not used
again. -/
theorem keeps_earlier {earlier rest : List Deed} {n : Nat}
    (kept : (after (earlier ++ rest)).custody.Keeps n)
    (old : n < (after earlier).openings.length) : (after earlier).custody.Keeps n := by
  induction rest using List.reverseRecOn with
  | nil => simpa using kept
  | append_singleton rest d ih =>
    apply ih
    have sound := sound_after (earlier ++ rest)
    rw [← List.append_assoc, after_concat] at kept
    cases d with
    | activate context own =>
      rcases (sound.keeps_activate_iff context own).mp kept with rfl | there
      · have grown := (openings_after earlier rest).length_le
        omega
      · exact there
    | drop number => exact (sound.keeps_drop_iff.mp kept).2
    | revoke switch => exact kept

/-- **`Within base l`** — what `l` has in force was in force in `base` or is new, and so is what
the new guards were made over. -/
structure Within (base l : Ledger) : Prop where
  inForce : l.inForce = base.inForce ∨ ∃ n, l.inForce = some n ∧ base.openings.length ≤ n
  beneath : ∀ number, base.openings.length ≤ number → l.custody.Keeps number →
    l.beneath number = base.inForce ∨ ∃ n, l.beneath number = some n ∧ base.openings.length ≤ n

theorem Within.activate {base l : Ledger} (within : Within base l) (sound : l.Sound)
    (grown : base.openings.length ≤ l.openings.length) (context : ContextId)
    (own : Option Revocation) : Within base (l.step (.activate context own)) where
  inForce := .inr ⟨l.openings.length, rfl, grown⟩
  beneath := by
    intro number new there
    rcases (sound.keeps_activate_iff context own).mp there with rfl | kept
    · have made : (l.step (.activate context own)).beneath l.openings.length = l.inForce := by
        simp [Ledger.beneath, step, opened]
      rw [made]
      exact within.inForce
    · rw [l.beneath_step _ (sound.lt_of_keeps kept)]
      exact within.beneath number new kept

theorem Within.drop {base l : Ledger} (within : Within base l) (sound : l.Sound) {number : Nat}
    (new : l.custody.Keeps number → base.openings.length ≤ number) :
    Within base (l.step (.drop number)) where
  inForce := by
    by_cases kept : l.custody.Keeps number
    · rw [inForce_drop kept]
      exact within.beneath number (new kept) kept
    · rw [step_drop_of_not_keeps kept]
      exact within.inForce
  beneath := fun other since there => within.beneath other since (sound.keeps_drop_iff.mp there).2

/-- As long as no guard of before is dropped, nothing of before comes into force but what was. -/
theorem within_after {earlier rest : List Deed}
    (kept : ∀ n, (after earlier).custody.Keeps n → (after (earlier ++ rest)).custody.Keeps n) :
    Within (after earlier) (after (earlier ++ rest)) := by
  induction rest using List.reverseRecOn with
  | nil =>
    rw [List.append_nil]
    refine ⟨.inl rfl, fun number new there => ?_⟩
    exact absurd ((sound_after earlier).lt_of_keeps there) (Nat.not_lt.mpr new)
  | append_singleton rest d ih =>
    have sound := sound_after (earlier ++ rest)
    have grown := (openings_after earlier rest).length_le
    have still : ∀ n, (after earlier).custody.Keeps n →
        (after (earlier ++ rest)).custody.Keeps n := by
      intro n there
      have later : (after ((earlier ++ rest) ++ [d])).custody.Keeps n := by
        rw [List.append_assoc]
        exact kept n there
      have number := (sound_after earlier).lt_of_keeps there
      exact keeps_earlier later (by omega)
    have within := ih still
    rw [← List.append_assoc, after_concat] at kept ⊢
    cases d with
    | activate context own => exact within.activate sound grown context own
    | drop number =>
      refine within.drop sound fun there => ?_
      -- A guard of before that is dropped now is missing in the end.
      by_contra old
      have early := keeps_earlier there (Nat.lt_of_not_le old)
      exact (sound.keeps_drop_iff.mp (kept number early)).1 rfl
    | revoke switch => exact ⟨within.inForce, within.beneath⟩

/-- Once the guards made since are dropped and no others, the register is as it was, unless one of
the dropped has been put in force again, and what it activated is not what was active. -/
theorem restored_iff {earlier rest : List Deed}
    (same : (after (earlier ++ rest)).custody.guarded.guards =
      (after earlier).custody.guarded.guards) :
    (after (earlier ++ rest)).custody.guarded.register = (after earlier).custody.guarded.register ↔
      ∀ n, (after (earlier ++ rest)).inForce = some n →
        ¬ (after (earlier ++ rest)).custody.Keeps n →
        ((after (earlier ++ rest)).noted (some n)).map Opening.activation =
          (after earlier).custody.guarded.register := by
  have sound := sound_after (earlier ++ rest)
  have before := sound_after earlier
  have keeps : ∀ n, (after (earlier ++ rest)).custody.Keeps n ↔ (after earlier).custody.Keeps n :=
    fun n => by rw [Custody.Keeps, same, Custody.Keeps]
  constructor
  · intro restored n held _
    rw [← restored, sound.register_eq, held]
  · intro stale
    rw [sound.register_eq]
    -- In force is what was in force at that point, or a guard made since, and those are dropped.
    rcases (within_after fun n => (keeps n).mpr).inForce with still | ⟨n, held, new⟩
    · rw [still, noted_of_grown (openings_after earlier rest) before.inForce_noted,
        before.register_eq]
    · rw [held]
      refine stale n held fun there => ?_
      exact absurd (before.lt_of_keeps ((keeps n).mp there)) (Nat.not_lt.mpr new)

/-! ## Guards that outlive what is made over them -/

theorem LandsOnKept.landsSheltered {l : Ledger} {number : Nat} (lands : l.LandsOnKept number)
    (sound : l.Sound) : l.LandsSheltered number := by
  intro kept o note
  obtain ⟨n, made, opening⟩ := Option.bind_eq_some_iff.mp note
  have earlier := sound.beneath_earlier number n made
  refine .inr ⟨n, by omega, lands kept n made, ?_⟩
  exact congrArg (Option.map Opening.context) opening

/-- Guards are kept for as long as the guards made over them. -/
def Nested : List Deed → Prop :=
  AtEachDrop fun before number => (after before).LandsOnKept number

theorem Nested.sheltered {history : List Deed} (nested : Nested history) :
    ∀ before, before <+: history → (after before).Sheltered := by
  rw [sheltered_throughout_iff]
  intro before number start
  exact (nested before number start).landsSheltered (sound_after before)

/-- What is in force is of a guard that is kept. -/
theorem Nested.inForce_kept {history : List Deed} (nested : Nested history) :
    ∀ n, (after history).inForce = some n → (after history).custody.Keeps n := by
  induction history using List.reverseRecOn with
  | nil =>
    intro n held
    cases held
  | append_singleton history d ih =>
    obtain ⟨earlier, last⟩ := atEachDrop_concat.mp nested
    have sound := sound_after history
    rw [after_concat]
    intro n held
    cases d with
    | activate context own =>
      cases held
      exact (sound.keeps_activate_iff context own).mpr (.inl rfl)
    | drop number =>
      by_cases kept : (after history).custody.Keeps number
      · rw [inForce_drop kept] at held
        have below := sound.beneath_earlier number n held
        exact sound.keeps_drop_iff.mpr ⟨by omega, last number rfl kept n held⟩
      · rw [step_drop_of_not_keeps kept] at held ⊢
        exact ih earlier n held
    | revoke switch => exact ih earlier n held

theorem nested_of_inReverse {history : List Deed} (reverse : InReverse history) :
    Nested history := by
  intro before number start _ n made
  have newest := reverse before number start
  have stacked := inOrder_after (reverse.earlier ((List.prefix_append _ _).trans start))
  obtain ⟨g, top, rfl⟩ := Option.map_eq_some_iff.mp newest
  obtain ⟨gs, guards⟩ := List.head?_eq_some_iff.mp top
  rw [InOrder, custody_after, guards] at stacked
  -- What the newest guard was made over is the next guard below it.
  have next := stacked.2.head
  rw [made] at next
  obtain ⟨x, first, rfl⟩ := Option.map_eq_some_iff.mp next.symm
  rw [custody_after]
  refine ⟨x, ?_, rfl⟩
  rw [guards]
  exact List.mem_cons_of_mem _ (List.mem_of_head? first)

end Ledger

/-- **`contexts_within_guards`** — when a context is seen, and when the register is as it was, in
terms of what guards were made over.

What is visible is all along a context that a guard still kept has installed, exactly if every drop
brings back nothing, or something hidden, or such a context. Once the guards made since some point
are dropped and no others, the register holds what it held then, exactly if no dropped guard has
been put in force again with something else. Both hold all along if every guard is kept for as long
as the guards made over it, and this is so if guards are dropped in the reverse order of their
making. -/
theorem contexts_within_guards (history : List Deed) :
    ((∀ before, before <+: history → (Ledger.after before).Sheltered) ↔
      AtEachDrop (fun before number => (Ledger.after before).LandsSheltered number) history) ∧
    (∀ earlier rest, history = earlier ++ rest →
      (Ledger.after history).custody.guarded.guards =
        (Ledger.after earlier).custody.guarded.guards →
      ((Ledger.after history).custody.guarded.register =
          (Ledger.after earlier).custody.guarded.register ↔
        ∀ n, (Ledger.after history).inForce = some n →
          ¬ (Ledger.after history).custody.Keeps n →
          ((Ledger.after history).noted (some n)).map Opening.activation =
            (Ledger.after earlier).custody.guarded.register)) ∧
    (Ledger.Nested history →
      (∀ before, before <+: history → (Ledger.after before).Sheltered) ∧
      ∀ earlier rest, history = earlier ++ rest →
        (Ledger.after history).custody.guarded.guards =
          (Ledger.after earlier).custody.guarded.guards →
        (Ledger.after history).custody.guarded.register =
          (Ledger.after earlier).custody.guarded.register) ∧
    (InReverse history → Ledger.Nested history) := by
  refine ⟨Ledger.sheltered_throughout_iff history, ?_, fun nested => ⟨nested.sheltered, ?_⟩,
    Ledger.nested_of_inReverse⟩
  · rintro earlier rest rfl same
    exact Ledger.restored_iff same
  · rintro earlier rest rfl same
    rw [Ledger.restored_iff same]
    intro n held gone
    exact absurd (nested.inForce_kept n held) gone

/-- Of two guards the older is dropped first, then the newer: what the older one activated is seen
again when no guard is kept, and stays. -/
theorem seen_without_a_guard :
    (¬ ∀ history, (Ledger.after history).Sheltered) ∧
      ¬ ∀ earlier rest, (Ledger.after (earlier ++ rest)).custody.guarded.guards =
          (Ledger.after earlier).custody.guarded.guards →
        (Ledger.after (earlier ++ rest)).custody.guarded.register =
          (Ledger.after earlier).custody.guarded.register := by
  constructor
  · intro sheltered
    obtain ⟨n, ⟨g, member, _⟩, _⟩ :=
      sheltered [.activate 0 none, .activate 1 none, .drop 0, .drop 1] 0 (by decide)
    cases member
  · intro restored
    have register := restored [] [.activate 0 none, .activate 1 none, .drop 0, .drop 1] (by decide)
    exact absurd register (by decide)

end CapabilityGate
