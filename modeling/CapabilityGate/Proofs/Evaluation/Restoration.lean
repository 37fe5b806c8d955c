import CapabilityGate.Proofs.Evaluation.Evolution

/-!
# What evaluations give back

An evaluation may activate contexts, nest calls, sleep, start runs and panic on the way. In the end
its thread has the register and the depth that it began with, and every shared context is what it
was: contexts are added, none is changed or taken away. `scoped_state_restored` says so of every
script, call, launch and question to a gate, at every level of nesting.
-/
namespace CapabilityGate

/-! ## Shared contexts -/

namespace World

variable {c : Catalog Body} {u v w : World}

/-- Every shared context is still there, and as it was. -/
def KeepsContexts (w w' : World) : Prop := w.store.contexts <+: w'.store.contexts

instance : IsPreorder World KeepsContexts where
  refl w := List.prefix_refl w.store.contexts
  trans _ _ _ := List.IsPrefix.trans

theorem keepsContexts_of_eq (h : v.store.contexts = w.store.contexts) : KeepsContexts w v :=
  ⟨[], by rw [h, List.append_nil]⟩

/-- A context that is kept has the tokens, the name and the parent that it had. -/
theorem KeepsContexts.find? {id : ContextId} {x : Context} (h : KeepsContexts w v)
    (found : w.store.find? id = some x) : v.store.find? id = some x := by
  obtain ⟨added, hadded⟩ := h
  obtain ⟨there, rfl⟩ := List.getElem?_eq_some_iff.mp found
  rw [Store.find?, ← hadded, List.getElem?_append_left there, List.getElem?_eq_getElem there]

/-- A run holds the context it is given, and may share one of its own. -/
theorem keepsContexts_heldForRun (w : World) (context : ContextId) (config : Config) :
    KeepsContexts w (heldForRun w context config) := by
  cases hsecurity : config.security with
  | true => exact keepsContexts_of_eq (by simp [heldForRun, hsecurity, Store.hold])
  | false =>
    refine ⟨[unrestrictedContext w context], ?_⟩
    simp [heldForRun, hsecurity, Store.hold, Store.share]

/-- Whatever evaluations do, they change no shared context. -/
theorem Evolves.keepsContexts (h : Evolves c w v) : KeepsContexts w v := by
  induction h with
  | refl w => exact refl_of KeepsContexts w
  | trans _ _ huv hvw => exact trans_of KeepsContexts huv hvw
  | check w budget =>
    obtain ⟨budgets, eq⟩ := w.afterCheck_eq budget
    exact keepsContexts_of_eq (by rw [eq])
  | cancel w =>
    obtain ⟨budgets, eq⟩ := w.cancelHost_eq
    exact keepsContexts_of_eq (by rw [eq])
  | refuse m args hroute hmet =>
    rw [Machine.denyAll_eq]
    exact keepsContexts_of_eq rfl
  | abandoned w run =>
    obtain ⟨budgets, eq⟩ := (w.revoke run.switch).changeBudget_eq run.budget Budget.cancel
    exact keepsContexts_of_eq (congrArg (fun u => u.store.contexts) eq)
  | opened w run => exact w.keepsContexts_heldForRun run.context run.config
  | held w context config => exact w.keepsContexts_heldForRun context config
  | _ => exact keepsContexts_of_eq rfl

end World

/-! ## Threads and contexts after an evaluation -/

namespace Activity

variable {α : Type} {x : Activity α}

/-- **`x.Restores`** — wherever the activity begins, its thread gets back the register and the depth
that it had, and no stretch of it changes a shared context, those of the workers that it leaves
behind included. Followed with nobody else about, it ends with the shared contexts of before. -/
def Restores (x : Activity α) : Prop :=
  ∀ m : Machine,
    (x m).Obeys World.KeepsContexts
      (fun r => r.thread = m.thread ∧ Late.AllObey World.KeepsContexts r.late) m.world ∧
    ∀ r w, (x m).finish = .ok (r, w) →
      r.thread = m.thread ∧ ∀ id y, m.world.store.find? id = some y → w.store.find? id = some y

theorem Obeys.restores {c : Catalog Body} (h : x.Obeys (World.Evolves c)) : x.Restores := by
  intro m
  have hcontexts : ∀ u v, World.Evolves c u v → World.KeepsContexts u v :=
    fun _ _ h => h.keepsContexts
  refine ⟨(h m).mono hcontexts fun r hr => ⟨hr.thread, fun l hl v => ?_⟩, fun r w hend => ?_⟩
  · exact (hr.late l hl v).mono hcontexts fun _ h => h
  · obtain ⟨hworld, hr⟩ := Course.Obeys.finish .reach (h m) hend
    exact ⟨hr.thread, fun id y found => hworld.keepsContexts.find? found⟩

end Activity

/-- **Scoped state is always restored.** With as many runs and calls nested as may be, whatever a
script, a call, a launch or a question for a token comes to, a value, a fault or a panic, register
and depth of the thread are then as before, and so is every shared context. -/
theorem scoped_state_restored (g : Gate) (runs room : Nat) :
    (∀ s : Script, (s.evaluate (callAt (launchAt runs) room) (launchAt runs) g).Restores) ∧
    (∀ callee args, (callAt (launchAt runs) room g callee args).Restores) ∧
    (∀ context config unit, (launchAt runs g context config unit).Restores) ∧
    ∀ capability resource operation (m : Machine),
      (g.coveringToken capability resource operation m).2.thread = m.thread ∧
        m.world.KeepsContexts (g.coveringToken capability resource operation m).2.world := by
  have hlaunches : (launchAt runs).Obey g.catalog := launchAt_obeys runs
  have hcalls : (callAt (launchAt runs) room).Obey g.catalog := callAt_obeys hlaunches room
  refine ⟨fun s => ?_, fun callee args => ?_, fun context config unit => ?_, ?_⟩
  · exact (s.evaluate_obeys hcalls hlaunches g rfl).restores
  · exact (hcalls g callee args rfl).restores
  · exact (hlaunches g context config unit rfl).restores
  · intro capability resource operation m
    obtain ⟨hworld, hthread⟩ := g.coveringToken_evolves capability resource operation m
    exact ⟨hthread, hworld.keepsContexts⟩

end CapabilityGate
