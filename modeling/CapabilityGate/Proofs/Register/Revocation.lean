import CapabilityGate.Proofs.Register.Custody

/-!
# What a thrown switch hides

An activation without a switch of its own answers to the switch of the activation below it; one
with a switch of its own answers to that one alone. So throwing the switch of an activation hides
what is nested in it only as far as the next switch: `hidden_iff_inner_switch_thrown` says exactly
when nothing is visible within a scope whose switch has been thrown.
-/
namespace CapabilityGate

namespace Ledger

/-- Of guards that stack, the newest one with a switch of its own has the switch that what is in
force answers to. -/
theorem Sound.switch_eq_newest {l : Ledger} (sound : l.Sound) {gs : List Guard} {x : Option Nat}
    (stacked : l.Stacked gs x) (there : ∀ g ∈ gs, g.number < l.openings.length) :
    (l.noted x).bind Opening.switch = gs.findSome? fun g => l.own g.number := by
  -- The newest guard has a switch of its own, or answers to what the next guard answers to.
  induction gs generalizing x with
  | nil =>
    rw [show x = none from stacked]
    rfl
  | cons g gs ih =>
    obtain ⟨rfl, rest⟩ := stacked
    have below := ih rest fun y member => there y (List.mem_cons_of_mem _ member)
    obtain ⟨o, note⟩ : ∃ o, l.openings[g.number]? = some o :=
      ⟨_, List.getElem?_eq_getElem (there g List.mem_cons_self)⟩
    have made : l.beneath g.number = o.beneath := by simp [beneath, note]
    have answers : (l.noted (some g.number)).bind Opening.switch = o.switch := by
      simp [noted, note]
    have given : l.own g.number = o.own := by simp [own, note]
    rw [made] at below
    rw [answers, sound.switch_eq _ o note, below, List.findSome?_cons, given]
    cases o.own <;> rfl

/-- As long as a guard is kept, something is in force, and it answers to the newest switch. -/
theorem register_of_reverse {history : List Deed} (reverse : InReverse history)
    (kept : (Custody.after history).guarded.guards ≠ []) :
    ∃ a, (Custody.after history).guarded.register = some a ∧
      a.revocation = (Custody.after history).guarded.guards.findSome? fun g =>
        (after history).own g.number := by
  have sound := sound_after history
  have stacked := inOrder_after reverse
  have answers := sound.switch_eq_newest stacked sound.kept_noted
  have register := sound.register_eq
  rw [custody_after] at answers register
  obtain ⟨g, gs, guards⟩ := List.exists_cons_of_ne_nil kept
  have top : (after history).inForce = some g.number := by
    have first := stacked.head
    rw [custody_after, guards] at first
    exact first
  have there : g.number < (after history).openings.length := by
    apply sound.kept_noted
    rw [custody_after, guards]
    exact List.mem_cons_self
  obtain ⟨o, note⟩ : ∃ o, (after history).openings[g.number]? = some o :=
    ⟨_, List.getElem?_eq_getElem there⟩
  have held : (after history).noted (after history).inForce = some o := by
    rw [top]
    exact note
  rw [held] at register answers
  exact ⟨o.activation, register, answers⟩

end Ledger

/-- **`hidden_iff_inner_switch_thrown`** — guards are dropped in the reverse order of their making,
`scope` is one that is kept, and its own switch has been thrown. Then nothing is visible exactly if
the activations nested in it have no switches of their own, or the newest switch among theirs has
been thrown as well. -/
theorem hidden_iff_inner_switch_thrown {history : List Deed} (reverse : InReverse history)
    {inner outer : List Guard} {scope : Guard} {switch : Revocation}
    (kept : (Custody.after history).guarded.guards = inner ++ scope :: outer)
    (tied : (Ledger.after history).own scope.number = some switch)
    (thrown : switch ∈ (Custody.after history).revoked) :
    (Custody.after history).current = none ↔
      ∀ q, (inner.findSome? fun g => (Ledger.after history).own g.number) = some q →
        q ∈ (Custody.after history).revoked := by
  obtain ⟨a, register, answers⟩ := Ledger.register_of_reverse reverse (by simp [kept])
  rw [kept, List.findSome?_append, List.findSome?_cons, tied] at answers
  rw [Custody.current_eq_none_iff, register]
  simp only [Register.revocation, Option.bind_some, answers, reduceCtorEq, false_or]
  cases nested : inner.findSome? fun g => (Ledger.after history).own g.number with
  | none => simpa using thrown
  | some q => simp

/-- A scope without a switch of its own, within one whose switch is thrown, is hidden. -/
theorem hidden_in_thrown_scope :
    InReverse [.activate 0 (some (.ofRun 0)), .activate 1 none, .revoke (.ofRun 0)] ∧
      (Custody.after [.activate 0 (some (.ofRun 0)), .activate 1 none,
        .revoke (.ofRun 0)]).current = none := by
  have reverse : InReverse [.activate 0 (some (.ofRun 0)), .activate 1 none,
      .revoke (.ofRun 0)] := atEachDrop_of_no_drop (by simp)
  have kept : (Custody.after [.activate 0 (some (.ofRun 0)), .activate 1 none,
      .revoke (.ofRun 0)]).guarded.guards =
        [⟨1, some ⟨0, some (.ofRun 0)⟩⟩] ++ ⟨0, none⟩ :: [] := rfl
  refine ⟨reverse, (hidden_iff_inner_switch_thrown reverse kept rfl (by decide)).mpr ?_⟩
  intro q nested
  cases nested

/-- Not everything within a scope whose switch is thrown is hidden: a switch of its own, not thrown,
keeps an activation visible. -/
theorem visible_in_thrown_scope :
    ¬ ∀ history, InReverse history → ∀ scope ∈ (Custody.after history).guarded.guards,
      ∀ switch, (Ledger.after history).own scope.number = some switch →
        switch ∈ (Custody.after history).revoked → (Custody.after history).current = none := by
  intro hidden
  have reverse : InReverse [.activate 0 (some (.ofRun 0)), .activate 1 (some (.ofRun 1)),
      .revoke (.ofRun 0)] := atEachDrop_of_no_drop (by simp)
  have unseen := hidden _ reverse ⟨0, none⟩ (by decide) (.ofRun 0) (by decide) (by decide)
  exact absurd unseen (by decide)

end CapabilityGate
