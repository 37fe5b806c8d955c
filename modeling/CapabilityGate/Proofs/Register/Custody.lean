import CapabilityGate.Scenario.Session
import Mathlib.Data.List.Induction
import Mathlib.Data.List.Nodup

/-!
# Histories of guards

What a thread does to its own register is a history of deeds: contexts are activated, guards are
dropped in whatever order, switches are thrown. `Custody` is the register with the guards that are
kept and the switches thrown so far; as long as a host evaluates nothing, its session moves its
custody by exactly these deeds (`Session.custody_steps`).

A register forgets which of several equal activations it holds, and what that one was made over. The
`Ledger` watches a history and writes this down. `Ledger.sound_after` is the one invariant that ties
the two: what the ledger has in force is what the register holds, and what a guard was made over is
what the guard puts back.
-/
namespace CapabilityGate

/-- What a thread can do to what is active on it. To do something within a context is to activate
it, to do that, and to drop the guard, however that ends. -/
inductive Deed where
  /-- Activates a context, with a switch of its own or without. -/
  | activate (context : ContextId) (own : Option Revocation)
  /-- Drops the guard with this number; a guard is there to be dropped only once. -/
  | drop (number : Nat)
  /-- Throws a switch. -/
  | revoke (switch : Revocation)
deriving DecidableEq, Repr

/-- What is active on a thread, the guards that are kept, and the switches that have been thrown. -/
structure Custody where
  guarded : Guarded
  revoked : List Revocation
deriving DecidableEq, Repr

namespace Custody

/-- A thread on which nothing has been activated. -/
def start : Custody := ⟨.empty, []⟩

/-- **`s.step d`** — what is active, and kept, after the deed. -/
def step (s : Custody) : Deed → Custody
  | .activate context own => { s with guarded := s.guarded.activate context own }
  | .drop number =>
    match s.guarded.guard? number with
    | none => s
    | some guard => { s with guarded := s.guarded.drop guard }
  | .revoke switch => { s with revoked := switch :: s.revoked }

/-- What is active, and kept, after a history. -/
def after (history : List Deed) : Custody := history.foldl step start

/-- The context that is visible to whoever asks. -/
def current (s : Custody) : Option ContextId := s.guarded.register.visible s.revoked.contains

/-- The guard with this number has not been dropped. -/
def Keeps (s : Custody) (number : Nat) : Prop := ∃ g ∈ s.guarded.guards, g.number = number

/-- The number of the guard made last of those that are kept. -/
def newest (s : Custody) : Option Nat := s.guarded.guards.head?.map Guard.number

@[simp] theorem after_nil : after [] = start := rfl

@[simp] theorem after_concat (history : List Deed) (d : Deed) :
    after (history ++ [d]) = (after history).step d := by
  simp [after]

theorem number_of_guard? {s : Custody} {number : Nat} {g : Guard}
    (found : s.guarded.guard? number = some g) :
    g ∈ s.guarded.guards ∧ g.number = number := by
  unfold Guarded.guard? at found
  exact ⟨List.mem_of_find?_eq_some found, by simpa using List.find?_some found⟩

theorem keeps_iff_guard? (s : Custody) (number : Nat) :
    s.Keeps number ↔ ∃ g, s.guarded.guard? number = some g := by
  rw [← Option.isSome_iff_exists, Guarded.guard?, List.find?_isSome]
  simp [Keeps]

theorem step_drop_of_guard? {s : Custody} {number : Nat} {g : Guard}
    (found : s.guarded.guard? number = some g) :
    s.step (.drop number) = { s with guarded := s.guarded.drop g } := by
  simp [step, found]

theorem guard?_of_not_keeps {s : Custody} {number : Nat} (gone : ¬ s.Keeps number) :
    s.guarded.guard? number = none := by
  rw [keeps_iff_guard?] at gone
  rw [Option.eq_none_iff_forall_ne_some]
  exact fun g found => gone ⟨g, found⟩

theorem step_drop_of_not_keeps {s : Custody} {number : Nat} (gone : ¬ s.Keeps number) :
    s.step (.drop number) = s := by
  simp [step, guard?_of_not_keeps gone]

@[simp] theorem revoked_drop (s : Custody) (number : Nat) :
    (s.step (.drop number)).revoked = s.revoked := by
  cases found : s.guarded.guard? number <;> simp [step, found]

/-- Dropping a guard keeps all the others. -/
theorem Keeps.drop_other {s : Custody} {m number : Nat} (kept : s.Keeps m) (other : m ≠ number) :
    (s.step (.drop number)).Keeps m := by
  by_cases there : s.Keeps number
  · obtain ⟨g, found⟩ := (s.keeps_iff_guard? number).mp there
    obtain ⟨x, member, rfl⟩ := kept
    -- Guards with different numbers are different, so this one is not the one that is erased.
    rw [step_drop_of_guard? found]
    have distinct : x ≠ g := by
      rintro rfl
      exact other (number_of_guard? found).2
    exact ⟨x, (List.mem_erase_of_ne distinct).mpr member, rfl⟩
  · rw [step_drop_of_not_keeps there]
    exact kept

theorem Keeps.of_drop {s : Custody} {m number : Nat} (kept : (s.step (.drop number)).Keeps m) :
    s.Keeps m := by
  by_cases there : s.Keeps number
  · obtain ⟨g, found⟩ := (s.keeps_iff_guard? number).mp there
    rw [step_drop_of_guard? found] at kept
    obtain ⟨x, member, same⟩ := kept
    exact ⟨x, List.mem_of_mem_erase member, same⟩
  · rwa [step_drop_of_not_keeps there] at kept

/-- A context is hidden exactly if none is active or the switch it answers to has been thrown. -/
theorem current_eq_none_iff (s : Custody) :
    s.current = none ↔
      s.guarded.register = none ∨ ∃ q, s.guarded.register.revocation = some q ∧ q ∈ s.revoked := by
  unfold current Register.visible Register.revocation
  cases s.guarded.register with
  | none => simp
  | some a => cases switch : a.revocation <;> simp [switch]

theorem current_eq_some_iff (s : Custody) (c : ContextId) :
    s.current = some c ↔
      ∃ a, s.guarded.register = some a ∧ a.context = c ∧ ∀ q, a.revocation = some q →
        q ∉ s.revoked := by
  unfold current Register.visible
  cases s.guarded.register with
  | none => simp
  | some a => cases switch : a.revocation <;> simp [switch, and_comm]

end Custody

/-! ## The session of a host -/

theorem World.revoked_changeBudget (w : World) (id : BudgetId) (f : Budget → Budget) :
    (w.changeBudget id f).revoked = w.revoked := by
  unfold changeBudget
  split <;> rfl

/-- The step evaluates something, or lets the workers in the background go on. -/
def Step.evaluates : Step → Bool
  | .call .. | .eval .. | .require .. | .run .. | .drain => true
  | _ => false

namespace Session

/-- What is active on the thread of the host, its guards, and the switches thrown so far. -/
def custody (s : Session) : Custody := ⟨s.guarded, s.world.revoked⟩

theorem visible_eq_current (s : Session) :
    s.machine.visible = s.custody.current.map s.world.store.lineageOf := rfl

/-- The deed that a step is, if it is one. -/
def deed? (s : Session) : Step → Option Deed
  | .activate id revocation =>
    (s.shared? id).map fun context => .activate context (revocation.map .named)
  | .deactivate number => (number.or s.custody.newest).map .drop
  | .revoke name => some (.revoke (.named name))
  | _ => none

theorem custody_release (s : Session) (name : String) : (s.release name).custody = s.custody := by
  unfold release
  split <;> rfl

theorem custody_deactivate (s : Session) (number : Option Nat) :
    (s.step (.deactivate number)).2.custody =
      ((number.or s.custody.newest).map Deed.drop).elim s.custody s.custody.step := by
  have dropped : (s.step (.deactivate number)).2.custody =
      (number.elim s.guarded.guards.head? s.guarded.guard?).elim s.custody fun g =>
        { s.custody with guarded := s.guarded.drop g } := by
    simp only [step]
    cases number.elim s.guarded.guards.head? s.guarded.guard? <;> rfl
  rw [dropped]
  cases number with
  | some number => cases found : s.guarded.guard? number <;> simp [Custody.step, custody, found]
  | none =>
    cases guards : s.guarded.guards with
    | nil => simp [Custody.newest, custody, guards]
    | cons g gs => simp [Custody.newest, Custody.step, custody, Guarded.guard?, guards]

/-- A step that evaluates nothing is a deed, or leaves alone what is active and kept. -/
theorem custody_step (s : Session) (x : Step) (quiet : x.evaluates = false) :
    (s.step x).2.custody = (s.deed? x).elim s.custody s.custody.step := by
  cases x with
  | activate id revocation =>
    simp only [step, deed?]
    cases s.shared? id <;> rfl
  | deactivate number => exact s.custody_deactivate number
  | revoke name => rfl
  | cancel =>
    simp only [step]
    cases s.world.hostBudget with
    | none => rfl
    | some budget => exact congrArg (Custody.mk s.guarded) (s.world.revoked_changeBudget budget _)
  | call | eval | require | run | drain => cases quiet
  | share name =>
    simp only [step]
    cases findEntry name s.drafts with
    | none => rfl
    | some x => exact s.custody_release name
  | drop name => exact s.custody_release name
  | _ =>
    simp only [step, setBudget]
    repeat' split
    all_goals rfl

/-- What a host without evaluations has active and keeps comes from a history of deeds. -/
theorem custody_steps (catalog : Catalog Expr) (steps : List Step)
    (quiet : ∀ x ∈ steps, x.evaluates = false) :
    ∃ history, (steps.foldl (fun s x => (s.step x).2) (start catalog)).custody =
      Custody.after history := by
  induction steps using List.reverseRecOn with
  | nil => exact ⟨[], rfl⟩
  | append_singleton steps x ih =>
    obtain ⟨history, same⟩ := ih fun y member => quiet y (List.mem_append_left _ member)
    rw [List.foldl_append, List.foldl_cons, List.foldl_nil,
      custody_step _ x (quiet x (by simp)), same]
    cases (steps.foldl (fun s x => (s.step x).2) (start catalog)).deed? x with
    | none => exact ⟨history, rfl⟩
    | some d => exact ⟨history ++ [d], (Custody.after_concat history d).symm⟩

end Session

/-! ## Orders of dropping -/

/-- Whenever the history drops a guard, this held of what had happened before and of that guard. -/
def AtEachDrop (P : List Deed → Nat → Prop) (history : List Deed) : Prop :=
  ∀ before number, before ++ [.drop number] <+: history → P before number

/-- Guards are dropped in the reverse order of their making. -/
def InReverse : List Deed → Prop :=
  AtEachDrop fun before number => (Custody.after before).newest = some number

theorem atEachDrop_of_no_drop {P : List Deed → Nat → Prop} {history : List Deed}
    (none : ∀ number, .drop number ∉ history) : AtEachDrop P history := by
  intro before number start
  exact absurd (start.subset (List.mem_append_right _ (List.mem_singleton_self _))) (none number)

theorem atEachDrop_concat {P : List Deed → Nat → Prop} {history : List Deed} {d : Deed} :
    AtEachDrop P (history ++ [d]) ↔
      AtEachDrop P history ∧ ∀ number, d = .drop number → P history number := by
  constructor
  · intro all
    refine ⟨fun before number start => all before number (start.trans (List.prefix_append _ _)), ?_⟩
    rintro number rfl
    exact all history number List.prefix_rfl
  · rintro ⟨earlier, last⟩ before number start
    rcases List.prefix_concat_iff.mp start with whole | inside
    · obtain ⟨rfl, same⟩ := List.append_inj' whole rfl
      exact last number (by simpa using same.symm)
    · exact earlier before number inside

theorem AtEachDrop.earlier {P : List Deed → Nat → Prop} {history before : List Deed}
    (all : AtEachDrop P history) (start : before <+: history) : AtEachDrop P before :=
  fun first number more => all first number (more.trans start)

/-! ## The ledger -/

/-- What is noted of an activation. -/
structure Opening where
  context : ContextId
  /-- The switch it was given for itself. -/
  own : Option Revocation
  /-- The switch it answers to. -/
  switch : Option Revocation
  /-- The guard whose activation was in force when this one was made. -/
  beneath : Option Nat
deriving DecidableEq, Repr

/-- What the register holds because of this activation. -/
def Opening.activation (o : Opening) : Activation := ⟨o.context, o.switch⟩

/-- A custody with the activations behind it. -/
structure Ledger where
  custody : Custody
  /-- The activation of every guard ever made, by the numbers of the guards. -/
  openings : List Opening
  /-- The guard whose activation is in force. -/
  inForce : Option Nat
deriving DecidableEq, Repr

namespace Ledger

/-- Nothing has been activated. -/
def start : Ledger := ⟨.start, [], none⟩

/-- What is noted of the activation of a guard. -/
def noted (l : Ledger) (number : Option Nat) : Option Opening := number.bind fun n => l.openings[n]?

/-- The guard whose activation was in force when this guard was made. -/
def beneath (l : Ledger) (number : Nat) : Option Nat := l.openings[number]?.bind Opening.beneath

/-- The context that was activated when this guard was made. -/
def installed (l : Ledger) (number : Nat) : Option ContextId :=
  l.openings[number]?.map Opening.context

/-- The switch that the activation of this guard was given for itself. -/
def own (l : Ledger) (number : Nat) : Option Revocation := l.openings[number]?.bind Opening.own

/-- **`l.opened context own`** — the note about an activation made now: without a switch of its own
it answers to the one below it. -/
def opened (l : Ledger) (context : ContextId) (own : Option Revocation) : Opening :=
  ⟨context, own, own.or ((l.noted l.inForce).bind Opening.switch), l.inForce⟩

/-- **`l.step d`** — the ledger after the deed. Dropping a guard puts in force again what the guard
was made over, kept or not. -/
def step (l : Ledger) : Deed → Ledger
  | .activate context own =>
    ⟨l.custody.step (.activate context own), l.openings ++ [l.opened context own],
      some l.openings.length⟩
  | .drop number =>
    ⟨l.custody.step (.drop number), l.openings,
      if (l.custody.guarded.guard? number).isSome then l.beneath number else l.inForce⟩
  | .revoke switch => ⟨l.custody.step (.revoke switch), l.openings, l.inForce⟩

/-- The ledger after a history. -/
def after (history : List Deed) : Ledger := history.foldl step start

@[simp] theorem after_nil : after [] = start := rfl

@[simp] theorem after_concat (history : List Deed) (d : Deed) :
    after (history ++ [d]) = (after history).step d := by
  simp [after]

@[simp] theorem custody_step (l : Ledger) (d : Deed) : (l.step d).custody = l.custody.step d := by
  cases d <;> rfl

theorem custody_after (history : List Deed) :
    (after history).custody = Custody.after history := by
  induction history using List.reverseRecOn with
  | nil => rfl
  | append_singleton history d ih => rw [after_concat, custody_step, ih, Custody.after_concat]

/-- Dropping a guard that is kept puts in force what it was made over. -/
theorem inForce_drop {l : Ledger} {number : Nat} (kept : l.custody.Keeps number) :
    (l.step (.drop number)).inForce = l.beneath number := by
  obtain ⟨g, found⟩ := (l.custody.keeps_iff_guard? number).mp kept
  simp [step, found]

/-- There is only one time to drop a guard. -/
theorem step_drop_of_not_keeps {l : Ledger} {number : Nat} (gone : ¬ l.custody.Keeps number) :
    l.step (.drop number) = l := by
  simp [step, Custody.step, Custody.guard?_of_not_keeps gone]

/-- Notes are added and never changed. -/
theorem openings_step (l : Ledger) (d : Deed) : l.openings <+: (l.step d).openings := by
  cases d with
  | activate context own => exact List.prefix_append _ _
  | drop number => exact List.prefix_rfl
  | revoke switch => exact List.prefix_rfl

theorem openings_after (history more : List Deed) :
    (after history).openings <+: (after (history ++ more)).openings := by
  induction more using List.reverseRecOn with
  | nil => simp
  | append_singleton more d ih =>
    rw [← List.append_assoc, after_concat]
    exact ih.trans (openings_step _ d)

/-- **`l.Sound`** — what is in force is what the register holds, and what a guard was made over is
what the guard puts back. -/
structure Sound (l : Ledger) : Prop where
  counted : l.openings.length = l.custody.guarded.next
  kept_noted : ∀ g ∈ l.custody.guarded.guards, g.number < l.openings.length
  distinct : (l.custody.guarded.guards.map Guard.number).Nodup
  inForce_noted : ∀ n, l.inForce = some n → n < l.openings.length
  beneath_earlier : ∀ number n, l.beneath number = some n → n < number
  switch_eq : ∀ (number : Nat) (o : Opening), l.openings[number]? = some o →
    o.switch = o.own.or ((l.noted o.beneath).bind Opening.switch)
  register_eq : l.custody.guarded.register = (l.noted l.inForce).map Opening.activation
  previous_eq : ∀ g ∈ l.custody.guarded.guards,
    g.previous = (l.noted (l.beneath g.number)).map Opening.activation

theorem sound_start : start.Sound := by
  constructor <;> simp [start, Custody.start, Guarded.empty, noted, beneath]

/-- A note that is there stays as it is. -/
theorem getElem?_of_grown {l l' : Ledger} (grown : l.openings <+: l'.openings) {n : Nat}
    (there : n < l.openings.length) : l'.openings[n]? = l.openings[n]? := by
  obtain ⟨added, whole⟩ := grown
  rw [← whole, List.getElem?_append_left there]

theorem noted_of_grown {l l' : Ledger} (grown : l.openings <+: l'.openings) {x : Option Nat}
    (there : ∀ n, x = some n → n < l.openings.length) : l'.noted x = l.noted x := by
  cases x with
  | none => rfl
  | some n => exact getElem?_of_grown grown (there n rfl)

theorem beneath_step (l : Ledger) (d : Deed) {n : Nat} (there : n < l.openings.length) :
    (l.step d).beneath n = l.beneath n := by
  rw [beneath, beneath, getElem?_of_grown (l.openings_step d) there]

/-- A new activation is noted behind all the others. -/
theorem getElem?_activate (l : Ledger) (context : ContextId) (own : Option Revocation) {n : Nat}
    {o : Opening} (note : (l.step (.activate context own)).openings[n]? = some o) :
    l.openings[n]? = some o ∨ n = l.openings.length ∧ o = l.opened context own := by
  rcases Nat.lt_trichotomy n l.openings.length with earlier | rfl | later
  · exact .inl (by rwa [getElem?_of_grown (l.openings_step _) earlier] at note)
  · refine .inr ⟨rfl, ?_⟩
    simpa [step] using note.symm
  · have beyond : (l.openings ++ [l.opened context own])[n]? = none := by simp; omega
    rw [step, beyond] at note
    cases note

/-- What a noted guard was made over is noted as well. -/
theorem Sound.beneath_noted {l : Ledger} (sound : l.Sound) {number : Nat} {o : Opening}
    (note : l.openings[number]? = some o) : ∀ n, o.beneath = some n → n < l.openings.length := by
  intro n below
  have earlier := sound.beneath_earlier number n (by simp [beneath, note, below])
  have there := (List.getElem?_eq_some_iff.mp note).1
  omega

theorem Sound.activate {l : Ledger} (sound : l.Sound) (context : ContextId)
    (own : Option Revocation) : (l.step (.activate context own)).Sound where
  counted := by simp [step, Custody.step, Guarded.activate, sound.counted]
  kept_noted := by
    intro g member
    rcases List.mem_cons.mp member with rfl | old
    · simp [step, sound.counted]
    · have there := sound.kept_noted g old
      simp [step]
      omega
  distinct := by
    refine List.nodup_cons.mpr ⟨?_, sound.distinct⟩
    intro again
    obtain ⟨g, old, same⟩ := List.mem_map.mp again
    have there := sound.kept_noted g old
    rw [same, sound.counted] at there
    exact Nat.lt_irrefl _ there
  inForce_noted := by
    intro n held
    simp only [step, Option.some.injEq] at held
    simp [step, ← held]
  beneath_earlier := by
    intro number n below
    obtain ⟨o, note, made⟩ := Option.bind_eq_some_iff.mp below
    rcases l.getElem?_activate context own note with old | ⟨rfl, rfl⟩
    · exact sound.beneath_earlier number n (by simp [beneath, old, made])
    · exact sound.inForce_noted n made
  switch_eq := by
    intro number o note
    rcases l.getElem?_activate context own note with old | ⟨rfl, rfl⟩
    · rw [noted_of_grown (l.openings_step _) (sound.beneath_noted old)]
      exact sound.switch_eq number o old
    · show _ = own.or (((l.step (.activate context own)).noted l.inForce).bind Opening.switch)
      rw [noted_of_grown (l.openings_step _) sound.inForce_noted]
      rfl
  register_eq := by
    -- What the register inherits from is what was in force.
    have last : (l.openings ++ [l.opened context own])[l.openings.length]? =
        some (l.opened context own) := by simp
    simp only [step, noted, Option.bind_some, last, Option.map_some]
    simp only [Custody.step, Guarded.activate, Register.activate, sound.register_eq]
    cases held : l.noted l.inForce <;>
      simp [Opening.activation, opened, held, Register.revocation]
  previous_eq := by
    intro g member
    rcases List.mem_cons.mp member with rfl | old
    · -- The new guard puts back what the register held until now.
      have made : (l.step (.activate context own)).beneath l.openings.length = l.inForce := by
        simp [beneath, step, opened]
      rw [← sound.counted, made, noted_of_grown (l.openings_step _) sound.inForce_noted]
      exact sound.register_eq
    · have there := sound.kept_noted g old
      rw [l.beneath_step _ there, noted_of_grown (l.openings_step _)]
      · exact sound.previous_eq g old
      · intro n below
        have earlier := sound.beneath_earlier _ n below
        omega

theorem Sound.drop {l : Ledger} (sound : l.Sound) (number : Nat) :
    (l.step (.drop number)).Sound := by
  by_cases kept : l.custody.Keeps number
  · obtain ⟨g, found⟩ := (l.custody.keeps_iff_guard? number).mp kept
    obtain ⟨member, rfl⟩ := Custody.number_of_guard? found
    have next : l.step (.drop g.number) =
        ⟨{ l.custody with guarded := l.custody.guarded.drop g }, l.openings,
          l.beneath g.number⟩ := by
      simp [step, Custody.step, found]
    rw [next]
    have rest : ∀ x ∈ l.custody.guarded.guards.erase g, x ∈ l.custody.guarded.guards :=
      fun x => List.mem_of_mem_erase
    exact
      { counted := sound.counted
        kept_noted := fun x kept => sound.kept_noted x (rest x kept)
        distinct := sound.distinct.sublist (List.erase_sublist.map Guard.number)
        inForce_noted := fun n held =>
          Nat.lt_trans (sound.beneath_earlier g.number n held) (sound.kept_noted g member)
        beneath_earlier := sound.beneath_earlier
        switch_eq := sound.switch_eq
        register_eq := sound.previous_eq g member
        previous_eq := fun x kept => sound.previous_eq x (rest x kept) }
  · rw [step_drop_of_not_keeps kept]
    exact sound

theorem Sound.step {l : Ledger} (sound : l.Sound) (d : Deed) : (l.step d).Sound := by
  cases d with
  | activate context own => exact sound.activate context own
  | drop number => exact sound.drop number
  | revoke switch =>
    -- A switch is thrown outside of the register and of the notes.
    exact ⟨sound.counted, sound.kept_noted, sound.distinct, sound.inForce_noted,
      sound.beneath_earlier, sound.switch_eq, sound.register_eq, sound.previous_eq⟩

/-- The ledger is right about every history. -/
theorem sound_after (history : List Deed) : (after history).Sound := by
  induction history using List.reverseRecOn with
  | nil => exact sound_start
  | append_singleton history d ih =>
    rw [after_concat]
    exact ih.step d

theorem Sound.lt_of_keeps {l : Ledger} (sound : l.Sound) {n : Nat} (kept : l.custody.Keeps n) :
    n < l.openings.length := by
  obtain ⟨g, member, rfl⟩ := kept
  exact sound.kept_noted g member

theorem Sound.keeps_activate_iff {l : Ledger} (sound : l.Sound) (context : ContextId)
    (own : Option Revocation) {n : Nat} :
    (l.step (.activate context own)).custody.Keeps n ↔
      n = l.openings.length ∨ l.custody.Keeps n := by
  simp [Custody.Keeps, Custody.step, Guarded.activate, sound.counted, eq_comm]

/-- A guard that has been dropped is not kept any more, and all the others are. -/
theorem Sound.keeps_drop_iff {l : Ledger} (sound : l.Sound) {m number : Nat} :
    (l.step (.drop number)).custody.Keeps m ↔ m ≠ number ∧ l.custody.Keeps m := by
  rw [custody_step]
  constructor
  · intro kept
    refine ⟨?_, kept.of_drop⟩
    rintro rfl
    obtain ⟨g, found⟩ := (l.custody.keeps_iff_guard? m).mp kept.of_drop
    obtain ⟨member, named⟩ := Custody.number_of_guard? found
    rw [Custody.step_drop_of_guard? found] at kept
    obtain ⟨x, left, same⟩ := kept
    have equal : x = g :=
      List.inj_on_of_nodup_map sound.distinct (List.mem_of_mem_erase left) member
        (same.trans named.symm)
    subst equal
    exact sound.distinct.of_map.not_mem_erase left
  · rintro ⟨other, kept⟩
    exact kept.drop_other other

/-! ## Guards that stack -/

/-- **`l.Stacked gs x`** — each of the guards, newest first, was made over the next of them, the
last over nothing, and `x` is the first. -/
def Stacked (l : Ledger) : List Guard → Option Nat → Prop
  | [], x => x = none
  | g :: gs, x => x = some g.number ∧ l.Stacked gs (l.beneath g.number)

theorem Stacked.step {l : Ledger} (d : Deed) {gs : List Guard} {x : Option Nat}
    (stacked : l.Stacked gs x) (there : ∀ g ∈ gs, g.number < l.openings.length) :
    (l.step d).Stacked gs x := by
  induction gs generalizing x with
  | nil => exact stacked
  | cons g gs ih =>
    obtain ⟨rfl, rest⟩ := stacked
    refine ⟨rfl, ?_⟩
    rw [l.beneath_step d (there g List.mem_cons_self)]
    exact ih rest fun y member => there y (List.mem_cons_of_mem _ member)

/-- What is in force is the guard made last of those that stack. -/
theorem Stacked.head {l : Ledger} {gs : List Guard} {x : Option Nat} (stacked : l.Stacked gs x) :
    x = gs.head?.map Guard.number := by
  cases gs with
  | nil => exact stacked
  | cons g gs => exact stacked.1

/-- **`l.InOrder`** — the guards that are kept stack, and the newest of them is in force. -/
def InOrder (l : Ledger) : Prop := l.Stacked l.custody.guarded.guards l.inForce

theorem InOrder.activate {l : Ledger} (stacked : l.InOrder) (sound : l.Sound)
    (context : ContextId) (own : Option Revocation) :
    (l.step (.activate context own)).InOrder := by
  refine ⟨congrArg some sound.counted, ?_⟩
  have made : (l.step (.activate context own)).beneath l.custody.guarded.next = l.inForce := by
    rw [← sound.counted]
    simp [beneath, step, opened]
  rw [made]
  exact Stacked.step _ stacked sound.kept_noted

theorem InOrder.drop {l : Ledger} (stacked : l.InOrder) (sound : l.Sound) {number : Nat}
    (newest : l.custody.newest = some number) : (l.step (.drop number)).InOrder := by
  obtain ⟨g, top, rfl⟩ := Option.map_eq_some_iff.mp newest
  obtain ⟨gs, guards⟩ := List.head?_eq_some_iff.mp top
  have found : l.custody.guarded.guard? g.number = some g := by simp [Guarded.guard?, guards]
  have kept : (l.step (.drop g.number)).custody.guarded.guards = gs := by
    rw [custody_step, Custody.step_drop_of_guard? found]
    simp [Guarded.drop, guards]
  have held := inForce_drop ((l.custody.keeps_iff_guard? g.number).mpr ⟨g, found⟩)
  unfold InOrder at stacked ⊢
  rw [guards] at stacked
  rw [kept, held]
  refine stacked.2.step _ fun y member => sound.kept_noted y ?_
  rw [guards]
  exact List.mem_cons_of_mem _ member

/-- As long as guards are dropped in the reverse order of their making, they stack. -/
theorem inOrder_after {history : List Deed} (reverse : InReverse history) :
    (after history).InOrder := by
  induction history using List.reverseRecOn with
  | nil => rfl
  | append_singleton history d ih =>
    obtain ⟨earlier, last⟩ := atEachDrop_concat.mp reverse
    have stacked := ih earlier
    have sound := sound_after history
    rw [after_concat]
    cases d with
    | activate context own => exact stacked.activate sound context own
    | drop number =>
      refine stacked.drop sound ?_
      rw [custody_after]
      exact last number rfl
    | revoke switch => exact Stacked.step _ stacked sound.kept_noted

end Ledger

end CapabilityGate
