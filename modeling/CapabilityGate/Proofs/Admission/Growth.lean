import CapabilityGate.Proofs.Context.Holdings

/-!
# What is held, and what is refused for it

Only the gate refuses for capabilities without entering a body, and when it does, the fault tells what
is missing and what is held. Both lists come from the lineage of the active context, and because its
look-up and its list agree they never overlap (`Gate.disjoint_of_lacking`).

More tokens never turn a call away: what is admitted in one store is admitted in every store that has
grown from it, and in the same way (`Gate.decision_withStore`). `held_list_agrees_with_admission` puts
this together.
-/
namespace CapabilityGate

/-! ## Faults for capabilities -/

/-- A listed method of a primitive value asks for no capabilities. -/
theorem Misuse.fault_ne_capability (misuse : Misuse) (symbol : String)
    (missing held : List Capability) : misuse.fault ≠ .capability symbol missing held := by
  intro same
  cases misuse <;> cases same

/-- A refusal that is not logged is not for capabilities. -/
theorem Catalog.decision_ne_refuse_capability (c : Catalog Body) (visible : Option Lineage)
    (callee : Value) (args : List Value) (symbol : String) (missing held : List Capability) :
    c.decision visible callee args ≠ .refuse (.capability symbol missing held) := by
  rw [decision_eq_route]
  intro same
  cases route : c.route callee with
  | gated _ r receiver body =>
    rw [route, Route.decision] at same
    split at same <;> cases same
  | notCallable | free | primitive | denied =>
    rw [route] at same
    cases same

namespace Gate

variable (g : Gate) {run : Script → Activity Ending} {callee : Value} {args : List Value}
  {m : Machine}

theorem decision_ne_refuse_capability (symbol : String) (missing held : List Capability) :
    g.decision callee args m ≠ .refuse (.capability symbol missing held) := by
  unfold decision
  split
  · intro same
    cases same
  · split
    · intro same
      cases same
    · exact g.catalog.decision_ne_refuse_capability _ _ _ _ _ _

/-- A call that enters no body ends in a fault for capabilities only if that was decided. -/
theorem lacking_of_fault {symbol : String} {missing held : List Capability} {thread : Thread}
    {late : Option Late} {w : World}
    (outside : ∀ receiver body, g.decision callee args m ≠ .enter receiver body)
    (ended : g.checkedCall run callee args m =
      .ended ⟨.returned (.error (.capability symbol missing held)), thread, late⟩ w) :
    ∃ resource, g.decision callee args m = .lacking missing held resource := by
  rw [checkedCall_eq_carryOut] at ended
  cases decision : g.decision callee args m with
  | refuse fault =>
    rw [decision] at ended
    cases ended
    exact absurd decision (g.decision_ne_refuse_capability _ _ _)
  | lacking missing held resource =>
    rw [decision] at ended
    cases ended
    exact ⟨resource, rfl⟩
  | enter receiver body => exact absurd decision (outside receiver body)
  | primitive method receiver =>
    rw [decision, Decision.carryOut] at ended
    cases answer : method.apply receiver args with
    | ok v =>
      rw [answer] at ended
      cases ended
    | error misuse =>
      rw [answer] at ended
      simp only [Except.mapError, Course.ended.injEq, Return.mk.injEq, Ending.returned.injEq,
        Except.error.injEq] at ended
      exact absurd ended.1.1 (misuse.fault_ne_capability _ _ _)

/-- **What is missing is not held**, and who holds everything misses nothing. -/
theorem disjoint_of_lacking {missing held : List Capability} {resource : Option String}
    (lacking : g.decision callee args m = .lacking missing held resource) :
    (∀ c ∈ missing, c ∉ held) ∧ Capability.universal ∉ held := by
  obtain ⟨-, -, r, -, unmet, rfl, rfl, -⟩ := (g.decision_eq_lacking_iff callee args m).1 lacking
  cases visible : m.visible with
  | none => simp [heldTypes]
  | some l =>
    have refused : ∀ c ∈ r.lackedBy (some l),
        c ∉ l.types true ∧ Capability.universal ∉ l.types true := by
      intro c member
      obtain ⟨-, absent⟩ := List.mem_filter.mp member
      rw [Bool.not_eq_true', ← Bool.not_eq_true, Lineage.holds_none_iff, not_or] at absent
      exact absent
    refine ⟨fun c member => (refused c member).1, ?_⟩
    -- Something is missing, or the requirement would be met.
    cases lacked : r.lackedBy (some l) with
    | nil =>
      rw [visible, ← r.missing_eq_nil_iff, r.missing_eq_lackedBy] at unmet
      exact absurd lacked unmet
    | cons c others => exact (refused c (lacked ▸ List.mem_cons_self)).2

end Gate

/-! ## What is admitted -/

/-- The call is admitted: a body is entered, or a listed method applied. -/
def Decision.admits : Decision → Bool
  | refuse _ => false
  | lacking _ _ _ => false
  | enter _ _ => true
  | primitive _ _ => true

/-- The machine with other shared contexts. -/
def Machine.withStore (m : Machine) (s : Store) : Machine :=
  m.change fun w => { w with store := s }

theorem Requirement.MetBy.withStore {r : Requirement} {m : Machine} {s : Store}
    (met : r.MetBy m.visible) (grown : m.world.store.Grown s) :
    r.MetBy (m.withStore s).visible := by
  rcases met with none | ⟨l, visible, held⟩
  · exact .inl none
  · obtain ⟨id, active, rfl⟩ := Option.map_eq_some_iff.mp visible
    refine .inr ⟨s.lineageOf id, ?_, fun c required => ?_⟩
    · show ((m.thread.register.visible m.world.isRevoked).map s.lineageOf) = _
      rw [active]
      rfl
    · exact Lineage.holds_of_types_subset (grown.types_subset id) (held c required)

/-- **What is admitted stays admitted** when the store grows, and the same is done for it. -/
theorem Gate.decision_withStore (g : Gate) {callee : Value} {args : List Value} {m : Machine}
    {s : Store} (grown : m.world.store.Grown s)
    (admitted : (g.decision callee args m).admits = true) :
    g.decision callee args (m.withStore s) = g.decision callee args m := by
  have budget : (m.withStore s).world.isExhausted g.budget = m.world.isExhausted g.budget := rfl
  have depth : (m.withStore s).thread = m.thread := rfl
  unfold decision at admitted ⊢
  rw [budget, depth]
  split
  · rfl
  · rename_i live
    rw [if_neg live] at admitted
    split
    · rfl
    · rename_i room
      rw [if_neg room] at admitted
      rw [Catalog.decision_eq_route] at admitted ⊢
      rw [Catalog.decision_eq_route]
      -- Only a gated route asks what is held.
      cases route : g.catalog.route callee with
      | gated symbol r receiver body =>
        rw [route] at admitted
        simp only [Route.decision] at admitted ⊢
        by_cases met : r.MetBy m.visible
        · rw [if_pos (met.withStore grown), if_pos met]
        · rw [if_neg met] at admitted
          cases admitted
      | notCallable | free | primitive | denied => rfl

/-- What was admitted is carried out as it was decided before the store grew. -/
theorem Gate.checkedCall_withStore (g : Gate) (run : Script → Activity Ending) {callee : Value}
    {args : List Value} {m : Machine} {s : Store} (grown : m.world.store.Grown s)
    (admitted : (g.decision callee args m).admits = true) :
    g.checkedCall run callee args (m.withStore s) =
      (g.decision callee args m).carryOut run callee args
        ((m.withStore s).afterCheck g.budget) := by
  rw [checkedCall_eq_carryOut, g.decision_withStore grown admitted]

/-- **The list of what is held and admission agree.** For every lineage, with or without the parents,
the list is in strict order without repetitions, and a capability is held exactly if it is listed or
the universal one is. A call that enters no body and ends in a fault for capabilities names as missing
nothing that it names as held, and the universal capability is not among the held ones. (A body that is
entered may pass on the fault of a call of its own, of which the same is true.) An admitted call is
carried out as it was decided, also with one token more for any context, or with any parent for a
context that has none to be reached. -/
theorem held_list_agrees_with_admission :
    (∀ (l : Lineage) (ancestors : Bool),
      (l.types ancestors).Pairwise (fun c d => c.name < d.name) ∧ (l.types ancestors).Nodup ∧
      ∀ c, l.holds c none ancestors = true ↔
        c ∈ l.types ancestors ∨ Capability.universal ∈ l.types ancestors) ∧
    (∀ (g : Gate) (run : Script → Activity Ending) (callee : Value) (args : List Value) (m : Machine)
      (symbol : String) (missing held : List Capability) (thread : Thread) (late : Option Late)
      (w : World), (∀ receiver body, g.decision callee args m ≠ .enter receiver body) →
      g.checkedCall run callee args m =
        .ended ⟨.returned (.error (.capability symbol missing held)), thread, late⟩ w →
      (∀ c ∈ missing, c ∉ held) ∧ Capability.universal ∉ held) ∧
    ∀ (g : Gate) (run : Script → Activity Ending) (callee : Value) (args : List Value) (m : Machine)
      (id : ContextId), (g.decision callee args m).admits = true →
      (∀ t, g.checkedCall run callee args (m.withStore (m.world.store.grant id t)) =
        (g.decision callee args m).carryOut run callee args
          ((m.withStore (m.world.store.grant id t)).afterCheck g.budget)) ∧
      ∀ x, m.world.store.find? id = some x → m.world.store.parent? x = none → ∀ parent,
        g.checkedCall run callee args (m.withStore (m.world.store.adopt id parent)) =
          (g.decision callee args m).carryOut run callee args
            ((m.withStore (m.world.store.adopt id parent)).afterCheck g.budget) := by
  refine ⟨fun l ancestors => ⟨l.types_sorted ancestors, l.types_nodup ancestors,
    fun c => Lineage.holds_none_iff⟩, ?_, ?_⟩
  · intro g run callee args m symbol missing held thread late w outside ended
    obtain ⟨resource, lacking⟩ := g.lacking_of_fault outside ended
    exact g.disjoint_of_lacking lacking
  · intro g run callee args m id admitted
    refine ⟨fun t => ?_, fun x found root parent => ?_⟩
    · exact g.checkedCall_withStore run (m.world.store.grown_grant id t) admitted
    · exact g.checkedCall_withStore run (Store.grown_adopt found root parent) admitted

/-- The method that opens the vault. -/
def openVault : Value := .method (.object "Vault" []) "open"

theorem decision_openVault_reader :
    vaultGate.decision openVault [.str "/a"] reader =
      .lacking [⟨"net.http"⟩] [⟨"file.read"⟩] (some "/a") := by
  unfold Gate.decision
  rw [visible_reader]
  rfl

/-- A context with all that the vault requires. -/
def keeper : Context :=
  .made "keeper" none [.unrestricted ⟨"file.read"⟩, .unrestricted ⟨"net.http"⟩]

/-- A thread on which it is active; an empty context is older. -/
def atKeeper : Machine :=
  ⟨{ World.initial with store := (Store.empty.share (.empty "spare" none)).share keeper },
    ⟨some ⟨1, none⟩, 0⟩⟩

theorem visible_atKeeper : atKeeper.visible = some [keeper] := by
  show some (Store.lineageOf _ 1) = _
  rw [Store.lineageOf]
  rfl

theorem decision_openVault_keeper :
    vaultGate.decision openVault [.str "/a"] atKeeper =
      .enter (.object "Vault" []) fun _ _ => .finish (.ok .unit) := by
  unfold Gate.decision
  rw [visible_atKeeper]
  rfl

/-- The reader is refused at the vault for nothing that it is said to hold; the keeper gets in, also
when its unrestricted token is replaced by a scoped one or the spare context becomes its parent. -/
theorem held_list_agrees_with_admission_vault :
    let opened := vaultGate.checkedCall (fun s => s.evaluate calls launches vaultGate) openVault
      [.str "/a"]
    let granted := atKeeper.world.store.grant 1 deskToken
    let adopted := atKeeper.world.store.adopt 1 0
    (⟨"net.http"⟩ : Capability) ∉ [(⟨"file.read"⟩ : Capability)] ∧
      granted.find? 1 = some (keeper.add deskToken) ∧
      adopted.parent? (keeper.withParent 0) = some (.empty "spare" none) ∧
      (∃ w, opened (atKeeper.withStore granted) =
        .ended ⟨.returned (.ok .unit), atKeeper.thread, none⟩ w) ∧
      ∃ w, opened (atKeeper.withStore adopted) =
        .ended ⟨.returned (.ok .unit), atKeeper.thread, none⟩ w := by
  intro opened granted adopted
  obtain ⟨-, disjoint, stays⟩ := held_list_agrees_with_admission
  have outside : ∀ receiver body,
      vaultGate.decision openVault [.str "/a"] reader ≠ .enter receiver body := by
    intro receiver body
    rw [decision_openVault_reader]
    nofun
  have ended : opened reader = _ := Gate.checkedCall_eq_carryOut ..
  rw [decision_openVault_reader] at ended
  have apart := disjoint _ _ _ _ _ _ _ _ _ _ _ outside ended
  have admitted : (vaultGate.decision openVault [.str "/a"] atKeeper).admits = true := by
    rw [decision_openVault_keeper]
    rfl
  obtain ⟨more, linked⟩ :=
    stays vaultGate (fun s => s.evaluate calls launches vaultGate) openVault _ atKeeper 1 admitted
  rw [decision_openVault_keeper] at more linked
  exact ⟨apart.1 _ List.mem_cons_self, rfl, rfl, ⟨_, more deskToken⟩, ⟨_, linked keeper rfl rfl 0⟩⟩

end CapabilityGate
