import CapabilityGate.Proofs.Context.Lineage
import CapabilityGate.Proofs.Evaluation.Likeness
import CapabilityGate.Proofs.Evaluation.Telling
import CapabilityGate.Proofs.Runs.Start

/-!
# Where everything is granted

The unit of a run with the checks of capabilities off has a context of its own: a child of the
caller's context that holds the universal token. `Widening.Stands` says what this takes in a world:
the child is there, somebody holds the caller's context, and the switch of the unit has not been
thrown. In such a world nothing is refused for capabilities (`Stands.sees`, `Sees.not_lacking`,
`Sees.not_denied`). A unit that stays put leaves it so, and leaves the log and the contexts as they
are: `Script.narrate_carries` follows its story event by event.
-/
namespace CapabilityGate

/-! ## Units that stay put -/

/-- **`s.StaysPut own`** — the script activates no context, starts no run, and does not throw the
switch that it answers to itself. -/
def Script.StaysPut (own : Option Revocation) : Script → Prop
  | finish _ => True
  | panic _ => True
  | call _ _ next => ∀ answer, (next answer).StaysPut own
  | require _ _ _ next => ∀ answer, (next answer).StaysPut own
  | find _ next => ∀ answer, (next answer).StaysPut own
  | current next => ∀ answer, (next answer).StaysPut own
  | revoke revocation next => own ≠ some revocation ∧ next.StaysPut own
  | cancel next => next.StaysPut own
  | report _ next => next.StaysPut own
  | sleep _ next => next.StaysPut own
  | raise _ next => next.StaysPut own
  | exit _ => True
  | allocate _ next => next.StaysPut own
  | within _ _ _ => False
  | launch _ _ _ _ => False

/-- Every body that a call can enter stays put. -/
def Catalog.StaysPut (own : Option Revocation) (c : Catalog Body) : Prop :=
  ∀ callee body, (c.route callee).body? = some body →
    ∀ receiver args, (body receiver args).StaysPut own

/-! ## What is widened -/

/-- The context of the caller of a run without checks, the context that its unit gets, and the switch
that the unit answers to. -/
structure Widening where
  context : ContextId
  effective : ContextId
  switch : Option Revocation

/-- What is widened by a run without checks that starts now. -/
def Machine.widening (m : Machine) (context : ContextId) (config : Config) : Widening :=
  ⟨context, m.world.store.contexts.length,
    (m.unitStart context config).thread.register.revocation⟩

namespace Widening

/-- The register of the unit. -/
def register (u : Widening) : Register := some ⟨u.effective, u.switch⟩

/-- **`u.Stands w`** — the context of the unit is there with the universal token, somebody holds its
parent, and the switch has not been thrown. -/
structure Stands (u : Widening) (w : World) : Prop where
  granted : ∃ x, w.store.find? u.effective = some x ∧ x.tokens = [Token.universal] ∧
    x.parent = some u.context
  older : u.context < u.effective
  held : w.store.isAlive u.context = true
  unthrown : ∀ r, u.switch = some r → r ∉ w.revoked

/-- **`u.Sees m`** — the context that is visible holds the universal token, and behind it is all that
the caller's context grants now. -/
def Sees (u : Widening) (m : Machine) : Prop :=
  ∃ x : Context, x.tokens = [Token.universal] ∧
    m.visible = some (x :: m.world.store.lineageOf u.context)

variable {u : Widening} {m : Machine} {w v : World}

theorem Stands.sees (h : u.Stands m.world) (here : m.thread.register = u.register) : u.Sees m := by
  obtain ⟨x, found, tokens, parent⟩ := h.granted
  refine ⟨x, tokens, ?_⟩
  have visible : Register.visible u.register m.world.isRevoked = some u.effective := by
    unfold register Register.visible
    cases switch : u.switch with
    | none => rfl
    | some r => simp [World.isRevoked, h.unthrown r switch]
  rw [Machine.visible, here, visible, Option.map_some,
    Store.lineageOf_child found parent h.older h.held]

/-- Whoever sees the universal token meets every requirement. -/
theorem Sees.met (h : u.Sees m) (r : Requirement) : r.MetBy m.visible := by
  obtain ⟨x, tokens, visible⟩ := h
  exact .inr ⟨_, visible, fun c _ => Lineage.holds_of_universal tokens c⟩

theorem Sees.mem_heldTypes_iff (h : u.Sees m) (c : Capability) :
    c ∈ heldTypes m.visible ↔
      c = Capability.universal ∨ c ∈ (m.world.store.lineageOf u.context).types true := by
  obtain ⟨x, tokens, visible⟩ := h
  rw [visible]
  exact Lineage.mem_types_universal_iff tokens

theorem Sees.not_lacking (h : u.Sees m) (g : Gate) (callee : Value) (args : List Value)
    (missing held : List Capability) (resource : Option String) :
    g.decision callee args m ≠ .lacking missing held resource := by
  intro lacking
  obtain ⟨-, -, r, -, unmet, -⟩ := (g.decision_eq_lacking_iff callee args m).1 lacking
  exact unmet (h.met r)

theorem Sees.not_denied (h : u.Sees m) (g : Gate) (capability : Capability)
    (resource operation : String) (c : Capability) (r : String) :
    (g.coveringToken capability resource operation m).1 ≠ .error (.resourceDenied c r) := by
  obtain ⟨x, tokens, visible⟩ := h
  intro denied
  rcases g.coveringToken_cases m capability resource operation with
    ⟨-, answer⟩ | ⟨-, token, -, -, answer⟩ | ⟨-, uncovered, -⟩
  · rw [answer] at denied
    cases denied
  · rw [answer] at denied
    cases denied
  · have covers := uncovered Token.universal (by
      rw [visible]
      exact Lineage.token?_of_universal tokens capability)
    cases covers

/-! ## Stretches of the unit -/

/-- What the unit finds in the world, and leaves as it is. -/
structure Spares (u : Widening) (w w' : World) : Prop where
  stands : u.Stands w'
  contexts : w'.store.contexts = w.store.contexts
  holders : ∀ id < u.effective, w'.store.holders id = w.store.holders id
  names : w'.names = w.names
  log : w'.log = w.log

/-- Where `u` stands, it is spared. -/
def Keeps (u : Widening) (w w' : World) : Prop := u.Stands w → u.Spares w w'

instance : IsPreorder World u.Keeps where
  refl w stands := ⟨stands, rfl, fun _ _ => rfl, rfl, rfl⟩
  trans a b c hab hbc stands := by
    have first := hab stands
    have second := hbc first.stands
    constructor
    · exact second.stands
    · exact second.contexts.trans first.contexts
    · exact fun id older => (second.holders id older).trans (first.holders id older)
    · exact second.names.trans first.names
    · exact second.log.trans first.log

/-- **`u.Grants e`** — what is asked is asked where everything is granted, and it is not refused for
capabilities. -/
def Grants (u : Widening) : Event → Prop
  | .call g m callee args =>
    u.Sees m ∧ ∀ missing held resource, g.decision callee args m ≠ .lacking missing held resource
  | .require g m capability resource operation =>
    u.Sees m ∧
      ∀ c r, (g.coveringToken capability resource operation m).1 ≠ .error (.resourceDenied c r)
  | .process _ _ => False

/-- **`u.Covers w told w'`** — where `u` stands, it is spared, and all that is told is granted. -/
def Covers (u : Widening) (w : World) (told : List Event) (w' : World) : Prop :=
  u.Stands w → u.Spares w w' ∧ ∀ e ∈ told, u.Grants e

instance : Accrues u.Covers where
  nil w stands := ⟨refl_of u.Keeps w stands, fun _ none => absurd none List.not_mem_nil⟩
  append {a b c told later} first second stands := by
    obtain ⟨spares, granted⟩ := first stands
    obtain ⟨spares', granted'⟩ := second spares.stands
    refine ⟨trans_of u.Keeps (fun _ => spares) (fun _ => spares') stands, fun e he => ?_⟩
    rcases List.mem_append.mp he with early | late
    · exact granted e early
    · exact granted' e late

/-- A change that touches neither contexts nor their names nor switches nor the log. -/
theorem keeps_of_eq (store : v.store = w.store) (names : v.names = w.names)
    (log : v.log = w.log) (revoked : v.revoked = w.revoked) : u.Keeps w v := by
  intro stands
  obtain ⟨granted, older, held, unthrown⟩ := stands
  rw [← store] at granted held
  rw [← revoked] at unthrown
  exact ⟨⟨granted, older, held, unthrown⟩, by rw [store], fun _ _ => by rw [store], names, log⟩

theorem keeps_afterCheck (u : Widening) (w : World) (budget : Option BudgetId) :
    u.Keeps w (w.afterCheck budget) := by
  obtain ⟨budgets, eq⟩ := w.afterCheck_eq budget
  rw [eq]
  exact keeps_of_eq rfl rfl rfl rfl

theorem keeps_reach (u : Widening) (w : World) (time : Time) : u.Keeps w (w.reach time) :=
  keeps_of_eq rfl rfl rfl rfl

/-- The unit's own context may be let go of. -/
theorem keeps_release (u : Widening) (w : World) : u.Keeps w (w.release u.effective) := by
  rintro ⟨granted, older, held, unthrown⟩
  have apart : ∀ id < u.effective, u.effective ≠ id := fun id older => Nat.ne_of_gt older
  refine ⟨⟨granted, older, ?_, unthrown⟩, rfl, fun id older => ?_, rfl, rfl⟩
  · rw [Store.isAlive_iff] at held ⊢
    show 0 < (w.store.release u.effective).holders u.context
    rw [Store.holders_release, if_neg (apart _ older)]
    exact held
  · show (w.store.release u.effective).holders id = _
    rw [Store.holders_release, if_neg (apart id older)]
    rfl

/-- A change of which nothing is told. -/
theorem Keeps.covers (h : u.Keeps w v) : u.Covers w [] v :=
  fun stands => ⟨h stands, fun _ none => absurd none List.not_mem_nil⟩

/-- A change before a story that touches neither contexts nor their names nor switches nor the log. -/
theorem Obeys.untouched {α : Type} {s : Story α} {Q : α → Prop} (h : s.Obeys u.Covers Q w)
    (store : w.store = v.store) (names : w.names = v.names) (log : w.log = v.log)
    (revoked : w.revoked = v.revoked) : s.Obeys u.Covers Q v :=
  Story.Obeys.after (keeps_of_eq store names log revoked).covers h

/-! ## Narratives that stay put -/

/-- **`u.Carries x`** — on a machine whose register is that of the unit, each stretch of the narrative
is covered, the thread is given back as it was, and nothing is left in the background. -/
def Carries {α : Type} (u : Widening) (x : Narrative α) : Prop :=
  ∀ m, m.thread.register = u.register →
    (x m).Obeys u.Covers (fun a => a.thread = m.thread ∧ a.late = none) m.world

variable {α β : Type}

theorem carries_pure (a : α) : u.Carries (Narrative.pure a) :=
  fun m _ => ⟨Accrues.nil m.world, rfl, rfl⟩

theorem Carries.bind {x : Narrative α} {f : α → Narrative β} (hx : u.Carries x)
    (hf : ∀ a, u.Carries (f a)) : u.Carries (x.bind f) := by
  intro m here
  refine Story.Obeys.bind (hx m here) fun r v ⟨thread, alone⟩ => ?_
  rw [alone, thread]
  exact hf r.result ⟨v, m.thread⟩ here

theorem Carries.andThen {x : Narrative Ending} {f : Result → Narrative Ending} (hx : u.Carries x)
    (hf : ∀ r, u.Carries (f r)) : u.Carries (x.andThen f) := by
  refine hx.bind fun ending => ?_
  cases ending with
  | returned result => exact hf result
  | panicked message => exact carries_pure _

theorem Carries.counted {x : Narrative α} (hx : u.Carries x) : u.Carries x.counted := by
  intro m here
  refine Story.Obeys.bind (hx m.enter here) fun r v ⟨thread, alone⟩ => ⟨Accrues.nil v, ?_, alone⟩
  simp [Machine.leave, thread, Machine.enter]

end Widening

section Evaluation

variable {u : Widening} {g : Gate}

open Widening

theorem Gate.narrateCall_carries (hg : g.catalog.StaysPut u.switch)
    {narrate : Script → Narrative Ending}
    (h : ∀ s : Script, s.StaysPut u.switch → u.Carries (narrate s)) (callee : Value)
    (args : List Value) : u.Carries (g.narrateCall narrate callee args) := by
  intro m here
  have checked := u.keeps_afterCheck m.world g.budget
  -- The call is told of the machine on which it is made, before its budget is checked.
  have told : u.Covers m.world [.call g m callee args] (m.afterCheck g.budget).world := by
    intro stands
    refine ⟨checked stands, fun e he => ?_⟩
    rw [List.mem_singleton.mp he]
    have sees := stands.sees here
    exact ⟨sees, sees.not_lacking g callee args⟩
  unfold narrateCall
  cases decision : g.decision callee args m with
  | lacking missing held resource =>
    refine ⟨fun stands => ?_, rfl, rfl⟩
    exact absurd decision ((stands.sees here).not_lacking g callee args missing held resource)
  | enter receiver body =>
    have stays := hg callee body (body?_of_enter decision) receiver args
    have inside : u.Carries fun n => narrate (body receiver args) (n.noteEntry callee true) :=
      fun n atEntry => Obeys.untouched (h _ stays (n.noteEntry callee true) atEntry) rfl rfl rfl rfl
    exact (inside.counted (m.afterCheck g.budget) here).tell told
  | refuse fault => exact (carries_pure _ (m.afterCheck g.budget) here).tell told
  | primitive method receiver =>
    refine Story.Obeys.tell told ⟨Keeps.covers ?_, rfl, rfl⟩
    exact keeps_of_eq rfl rfl rfl rfl

/-- A question for a token is told and answered at once. -/
theorem Gate.coveringToken_covered (m : Machine) (here : m.thread.register = u.register)
    (capability : Capability) (resource operation : String) :
    u.Covers m.world [.require g m capability resource operation]
        (g.coveringToken capability resource operation m).2.world ∧
      (g.coveringToken capability resource operation m).2.thread = m.thread := by
  have told : ∀ w, u.Keeps m.world w →
      u.Covers m.world [.require g m capability resource operation] w := by
    intro w keeps stands
    refine ⟨keeps stands, fun e he => ?_⟩
    rw [List.mem_singleton.mp he]
    have sees := stands.sees here
    exact ⟨sees, sees.not_denied g capability resource operation⟩
  rcases g.coveringToken_cases m capability resource operation with
    ⟨-, answer⟩ | ⟨-, token, -, -, answer⟩ | ⟨-, -, answer⟩
  · rw [answer]
    exact ⟨told _ (u.keeps_afterCheck m.world g.budget), rfl⟩
  · rw [answer]
    exact ⟨told _ (refl_of u.Keeps m.world), rfl⟩
  · refine ⟨fun stands => ?_, by rw [answer]; rfl⟩
    have denied := (stands.sees here).not_denied g capability resource operation capability resource
    rw [answer] at denied
    exact absurd rfl denied

theorem Script.narrate_carries {calls : CallStories} {launches : LaunchStories}
    (hcalls : ∀ callee args, u.Carries (calls g callee args)) (s : Script)
    (hs : s.StaysPut u.switch) : u.Carries (s.narrate calls launches g) := by
  -- On the tree of the script, one case for each request of a script that stays put.
  induction s with
  | finish result => exact carries_pure _
  | panic message => exact carries_pure _
  | call callee args next ih => exact (hcalls callee args).andThen fun r => ih r (hs r)
  | require capability resource operation next ih =>
    intro m here
    obtain ⟨covered, thread⟩ :=
      Gate.coveringToken_covered (g := g) m here capability resource operation
    have rest := ih (g.coveringToken capability resource operation m).1 (hs _)
      (g.coveringToken capability resource operation m).2 (thread ▸ here)
    rw [thread] at rest
    exact rest.tell covered
  | find name next ih => exact fun m here => ih _ (hs _) m here
  | current next ih => exact fun m here => ih _ (hs _) m here
  | revoke revocation next ih =>
    intro m here
    refine (ih hs.2 (m.change (·.revoke revocation)) here).after (Keeps.covers fun stands => ?_)
    have unthrown : ∀ r, u.switch = some r → r ∉ (m.world.revoke revocation).revoked := by
      intro r switch thrown
      rcases List.mem_cons.mp thrown with rfl | before
      · exact hs.1 switch
      · exact stands.unthrown r switch before
    exact ⟨⟨stands.granted, stands.older, stands.held, unthrown⟩, rfl, fun _ _ => rfl, rfl, rfl⟩
  | cancel next ih =>
    intro m here
    obtain ⟨budgets, eq⟩ := m.world.cancelHost_eq
    refine (ih hs (m.change World.cancelHost) here).after (Keeps.covers ?_)
    show u.Keeps m.world m.world.cancelHost
    rw [eq]
    exact keeps_of_eq rfl rfl rfl rfl
  | report result next ih =>
    intro m here
    exact Obeys.untouched (ih hs (m.change (·.report result)) here) rfl rfl rfl rfl
  | sleep time next ih => exact fun m here => Story.obeys_later fun v => ih hs ⟨v, m.thread⟩ here
  | raise signal next ih =>
    intro m here
    unfold narrate
    cases Signal.raise m.world.spent signal with
    | ok spent =>
      exact Obeys.untouched (ih hs (m.change fun w => { w with spent }) here) rfl rfl rfl rfl
    | error death => exact Accrues.nil m.world
  | exit status => exact fun m _ => Accrues.nil m.world
  | allocate bytes next ih =>
    intro m here
    unfold narrate
    split
    · exact ih hs m here
    · exact Accrues.nil m.world
  | within | launch => exact hs.elim

theorem callStoryAt_carries {launches : LaunchStories} (hg : g.catalog.StaysPut u.switch)
    (room : Nat) (callee : Value) (args : List Value) :
    u.Carries (callStoryAt launches room g callee args) := by
  -- On the number of calls that may still be nested in this one.
  induction room generalizing callee args with
  | zero => exact Gate.narrateCall_carries hg (fun _ _ => carries_pure _) callee args
  | succ room ih =>
    exact Gate.narrateCall_carries hg (fun s hs => s.narrate_carries ih hs) callee args

end Evaluation

end CapabilityGate
