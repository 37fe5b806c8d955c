import CapabilityGate.Proofs.Evaluation.Evolution

/-!
# Complete mediation

No evaluation enters a body that is not admitted at that moment. The journal of a world has one
entry for each body that was entered, with the context that was visible then, and it only ever grows
by entries that the catalog admits (`World.Evolves.entersAdmitted`). No body is evaluated without such
an entry in front (`Gate.checkedCall_eq_of_entered`). A body that no rule can admit
is not entered at all: whatever stands in its place, every evaluation is the same
(`Gate.alike_withBarred`).
-/
namespace CapabilityGate

/-! ## The journal -/

namespace World

variable {c : Catalog Body} {u v w : World}

/-- Every registered body that is entered on the way is admitted when it is entered. -/
def EntersAdmitted (c : Catalog Body) (w w' : World) : Prop :=
  ∃ entered, w'.entries = entered ++ w.entries ∧
    ∀ e ∈ entered, e.registered = true → c.Admits e.callee e.visible

theorem entersAdmitted_of_eq (h : v.entries = w.entries) : EntersAdmitted c w v :=
  ⟨[], h, by simp⟩

theorem EntersAdmitted.trans (huv : EntersAdmitted c u v) (hvw : EntersAdmitted c v w) :
    EntersAdmitted c u w := by
  obtain ⟨first, hv, hfirst⟩ := huv
  obtain ⟨second, hw, hsecond⟩ := hvw
  refine ⟨second ++ first, by rw [hw, hv, List.append_assoc], ?_⟩
  intro e he
  rcases List.mem_append.1 he with he | he
  · exact hsecond e he
  · exact hfirst e he

@[simp]
theorem changeBudget_entries (w : World) (id : BudgetId) (f : Budget → Budget) :
    (w.changeBudget id f).entries = w.entries := by
  unfold changeBudget
  split <;> rfl

@[simp]
theorem afterCheck_entries (w : World) (budget : Option BudgetId) :
    (w.afterCheck budget).entries = w.entries := by
  cases budget with
  | none => rfl
  | some id => exact changeBudget_entries w id _

@[simp]
theorem cancelHost_entries (w : World) : w.cancelHost.entries = w.entries := by
  unfold cancelHost
  split
  · rfl
  · exact changeBudget_entries w _ _

/-- Whatever evaluations do, they enter only what is admitted. -/
theorem Evolves.entersAdmitted (h : Evolves c w v) : EntersAdmitted c w v := by
  induction h with
  | refl w => exact entersAdmitted_of_eq rfl
  | trans _ _ huv hvw => exact huv.trans hvw
  | check w budget => exact entersAdmitted_of_eq (afterCheck_entries w budget)
  | cancel w => exact entersAdmitted_of_eq (cancelHost_entries w)
  | enter m callee hadmits hdepth =>
    refine ⟨[⟨callee, m.visible, m.thread.depth, true⟩], rfl, ?_⟩
    intro e he _
    rw [List.mem_singleton.1 he]
    exact hadmits
  | primitive m callee hdepth =>
    refine ⟨[⟨callee, m.visible, m.thread.depth, false⟩], rfl, ?_⟩
    intro e he hregistered
    rw [List.mem_singleton.1 he] at hregistered
    cases hregistered
  | refuse m args hroute hmet =>
    rw [Machine.denyAll_eq]
    exact entersAdmitted_of_eq rfl
  | abandoned w run => exact entersAdmitted_of_eq (changeBudget_entries _ run.budget _)
  | joined w effective context violations hentries hlog hchild ih =>
    -- The copy began with an empty journal, so what comes back is what was entered there.
    obtain ⟨entered, hchild', hentered⟩ := ih
    rw [hentries, List.append_nil] at hchild'
    exact ⟨entered, by simp [afterProcess, hchild'], hentered⟩
  | _ => exact entersAdmitted_of_eq rfl

end World

/-! ## Bodies that no rule admits -/

/-- A listing with another body, if no rule admits it: if it requires nothing and is neither of the
program nor of a trusted class. -/
def Listing.withBarred {β : Type} (x : Listing β) (standIn : β) : Listing β :=
  if x.requirement.isNone && !x.origin.isProgram && !x.trusted then { x with body := standIn }
  else x

namespace Catalog

variable {β : Type}

/-- A function with another body, if no rule admits it. -/
def barFunction (standIn : β) (f : FunctionEntry β) : FunctionEntry β :=
  if f.requirement.isNone && !f.origin.isProgram then { f with body := standIn } else f

/-- A method of a class that is neither of the program nor trusted, with another body if it requires
nothing. -/
def barMethod (standIn : β) (m : MethodEntry β) : MethodEntry β :=
  if m.requirement.isNone then { m with body := standIn } else m

/-- A class with other bodies for the methods that no rule admits. -/
def barClass (standIn : β) (k : ClassEntry β) : ClassEntry β :=
  if k.origin.isProgram || k.trusted then k
  else { k with methods := k.methods.map (barMethod standIn) }

/-- The catalog with another body in place of every one that no rule admits. -/
def withBarred (c : Catalog β) (standIn : β) : Catalog β :=
  { c with
    functions := c.functions.map (barFunction standIn)
    classes := c.classes.map (barClass standIn) }

variable (c : Catalog β) (standIn : β)

@[simp]
theorem barFunction_symbol (f : FunctionEntry β) : (barFunction standIn f).symbol = f.symbol := by
  unfold barFunction
  split <;> rfl

@[simp]
theorem barMethod_name (m : MethodEntry β) : (barMethod standIn m).name = m.name := by
  unfold barMethod
  split <;> rfl

@[simp]
theorem barFunction_origin (f : FunctionEntry β) : (barFunction standIn f).origin = f.origin := by
  unfold barFunction
  split <;> rfl

@[simp]
theorem barClass_name (k : ClassEntry β) : (barClass standIn k).name = k.name := by
  unfold barClass
  split <;> rfl

@[simp]
theorem barClass_origin (k : ClassEntry β) : (barClass standIn k).origin = k.origin := by
  unfold barClass
  split <;> rfl

@[simp]
theorem barClass_trusted (k : ClassEntry β) : (barClass standIn k).trusted = k.trusted := by
  unfold barClass
  split <;> rfl

theorem function?_withBarred (symbol : String) :
    (c.withBarred standIn).function? symbol = (c.function? symbol).map (barFunction standIn) := by
  have named : (fun f => decide (f.symbol = symbol)) ∘ barFunction standIn =
      fun f : FunctionEntry β => decide (f.symbol = symbol) := by
    funext f
    simp
  rw [function?, function?, withBarred, List.find?_map, named]

theorem class?_withBarred (name : String) :
    (c.withBarred standIn).class? name = (c.class? name).map (barClass standIn) := by
  have named : (fun k => decide (k.name = name)) ∘ barClass standIn =
      fun k : ClassEntry β => decide (k.name = name) := by
    funext k
    simp
  rw [class?, class?, withBarred, List.find?_map, named]

theorem method?_barClass (k : ClassEntry β) (name : String) :
    (barClass standIn k).method? name =
      if k.origin.isProgram || k.trusted then k.method? name
      else (k.method? name).map (barMethod standIn) := by
  unfold barClass
  split
  · rfl
  · have named : (fun m => decide (m.name = name)) ∘ barMethod standIn =
        fun m : MethodEntry β => decide (m.name = name) := by
      funext m
      simp
    rw [ClassEntry.method?, ClassEntry.method?, List.find?_map, named]

theorem listing?_withBarred (callee : Value) :
    (c.withBarred standIn).listing? callee = (c.listing? callee).map (·.withBarred standIn) := by
  unfold listing?
  split
  · rename_i symbol
    rw [function?_withBarred]
    cases c.function? symbol with
    | none => rfl
    | some f => cases hr : f.requirement <;> cases hp : f.origin.isProgram <;>
        simp [barFunction, Listing.withBarred, hr, hp]
  · rename_i className fields name
    rw [class?_withBarred]
    cases c.class? className with
    | none => rfl
    | some k =>
      simp only [Option.map_some, Option.bind_some, method?_barClass, barClass_origin,
        barClass_trusted]
      cases k.method? name with
      | none => simp
      | some m => cases hr : m.requirement <;> cases hp : k.origin.isProgram <;>
          cases k.trusted <;> simp [barMethod, Listing.withBarred, hr, hp]
  · rfl

theorem originOf_withBarred (callee : Value) :
    (c.withBarred standIn).originOf callee = c.originOf callee := by
  unfold originOf
  split
  · rw [function?_withBarred]
    cases c.function? _ with
    | none => rfl
    | some f => simp
  · rw [class?_withBarred]
    cases c.class? _ with
    | none => rfl
    | some k => simp
  · rfl
  · rfl

/-- The route of a call does not depend on bodies that no rule admits. -/
theorem route_withBarred (callee : Value) :
    (c.withBarred standIn).route callee = c.route callee := by
  have hlisting := c.listing?_withBarred standIn callee
  cases hx : c.listing? callee with
  | some x =>
    rw [hx, Option.map_some, Listing.withBarred] at hlisting
    by_cases hbarred : (x.requirement.isNone && !x.origin.isProgram && !x.trusted) = true
    · rw [if_pos hbarred] at hlisting
      rw [route_of_listing hx, route_of_listing hlisting]
      simp only [Bool.and_eq_true, Bool.not_eq_true', Option.isNone_iff_eq_none] at hbarred
      obtain ⟨⟨hr, hp⟩, ht⟩ := hbarred
      simp [hr, hp, ht]
    · rw [if_neg hbarred] at hlisting
      rw [route_of_listing hx, route_of_listing hlisting]
  | none =>
    rw [hx, Option.map_none] at hlisting
    cases hc : callee.isCallable with
    | true => rw [route_of_unlisted hc hx, route_of_unlisted hc hlisting, originOf_withBarred]
    | false => cases callee <;> first | rfl | cases hc

end Catalog

/-! ## Evaluations under catalogs that route alike -/

/-- Two gates with one budget whose catalogs give every call the same route. -/
structure Gate.Alike (g h : Gate) : Prop where
  budget : g.budget = h.budget
  route : ∀ callee, g.catalog.route callee = h.catalog.route callee
  sources : g.catalog.callSources = h.catalog.callSources

namespace Gate.Alike

variable {g h : Gate} {launches : Launches}

theorem rebudget (alike : g.Alike h) (budget : Option BudgetId) :
    Alike ⟨g.catalog, budget⟩ ⟨h.catalog, budget⟩ :=
  ⟨rfl, alike.route, alike.sources⟩

theorem checkedCall_eq (alike : g.Alike h) (run : Script → Activity Ending) (callee : Value)
    (args : List Value) : g.checkedCall run callee args = h.checkedCall run callee args := by
  have hfollow : g.follow run callee args = h.follow run callee args := by
    funext m
    unfold follow
    rw [alike.route, alike.sources]
  have hwithin : g.followWithin run callee args = h.followWithin run callee args := by
    funext m
    unfold followWithin
    rw [hfollow]
  funext m
  unfold checkedCall
  rw [alike.budget, hwithin]

theorem coveringToken_eq (alike : g.Alike h) (capability : Capability)
    (resource operation : String) (m : Machine) :
    g.coveringToken capability resource operation m =
      h.coveringToken capability resource operation m := by
  unfold coveringToken
  rw [alike.budget]

/-- A script sees its gate only through the answers to its requests. -/
theorem evaluate_eq (alike : g.Alike h) {calls : Calls} (hcalls : calls g = calls h)
    (hlaunches : launches g = launches h) (s : Script) :
    s.evaluate calls launches g = s.evaluate calls launches h := by
  -- The script is the same on both sides; only calls and launches look at the catalog.
  induction s with
  | call callee args next ih => simp only [Script.evaluate, hcalls, ih]
  | require capability resource operation next ih =>
    simp only [Script.evaluate, alike.coveringToken_eq, ih]
  | within context body next ihbody ih => simp only [Script.evaluate, ihbody, ih]
  | launch context config unit next ihunit ih => simp only [Script.evaluate, hlaunches, ih]
  | find name next ih => simp only [Script.evaluate, ih]
  | current next ih => simp only [Script.evaluate, ih]
  | revoke revocation next ih => simp only [Script.evaluate, ih]
  | cancel next ih => simp only [Script.evaluate, ih]
  | report result next ih => simp only [Script.evaluate, ih]
  | sleep time next ih => simp only [Script.evaluate, ih]
  | raise signal next ih => simp only [Script.evaluate, ih]
  | allocate bytes next ih => simp only [Script.evaluate, ih]
  | finish | panic | exit => rfl

theorem callAt_eq (hlaunches : ∀ {g h : Gate}, g.Alike h → launches g = launches h) (room : Nat)
    (alike : g.Alike h) : callAt launches room g = callAt launches room h := by
  induction room generalizing g h with
  | zero =>
    funext callee args
    exact alike.checkedCall_eq _ callee args
  | succ room ih =>
    funext callee args
    unfold callAt
    have hbody : (fun s : Script => s.evaluate (callAt launches room) launches g) =
        fun s : Script => s.evaluate (callAt launches room) launches h :=
      funext fun s => alike.evaluate_eq (ih alike) (hlaunches alike) s
    rw [alike.checkedCall_eq, hbody]

theorem run_eq {evaluate : Gate → Script → Activity Ending}
    (hevaluate : ∀ {g h : Gate}, g.Alike h → evaluate g = evaluate h) (alike : g.Alike h) :
    run evaluate g = run evaluate h := by
  have hwork : ∀ budget, evaluate ⟨g.catalog, budget⟩ = evaluate ⟨h.catalog, budget⟩ :=
    fun budget => hevaluate (alike.rebudget budget)
  funext context config unit
  unfold run runOnThread runInProcess
  simp only [hwork]

theorem launchAt_eq (fuel : Nat) (alike : g.Alike h) : launchAt fuel g = launchAt fuel h := by
  induction fuel generalizing g h with
  | zero => rfl
  | succ fuel ih =>
    refine run_eq (fun alike => funext fun s => ?_) alike
    exact alike.evaluate_eq (callAt_eq ih maxDepth alike) (ih alike) s

theorem execute_eq (alike : g.Alike h) (s : Script) : g.execute s = h.execute s :=
  alike.evaluate_eq (callAt_eq (launchAt_eq nestedRuns) maxDepth alike)
    (launchAt_eq nestedRuns alike) s

end Gate.Alike

/-- The gate with another body in place of every one that no rule admits. -/
def Gate.withBarred (g : Gate) (standIn : Body) : Gate :=
  { g with catalog := g.catalog.withBarred standIn }

theorem Gate.alike_withBarred (g : Gate) (standIn : Body) : g.Alike (g.withBarred standIn) :=
  ⟨rfl, fun callee => (g.catalog.route_withBarred standIn callee).symm, rfl⟩

/-! ## Complete mediation -/

namespace Gate

variable {g : Gate} {run run' : Script → Activity Ending} {callee : Value} {args : List Value}
  {m : Machine}

theorem follow_eq_of_entered
    (same : ∀ s (n : Machine),
      n.world.entries = ⟨callee, n.visible, n.thread.depth, true⟩ :: m.world.entries →
      g.catalog.Admits callee n.visible → run s n = run' s n) :
    g.follow run callee args m = g.follow run' callee args m := by
  unfold follow
  cases route : g.catalog.route callee with
  | notCallable | primitive | denied => rfl
  | free receiver body => exact same _ _ rfl (Catalog.admits_of_free route)
  | gated symbol requirement receiver body =>
    dsimp only
    split
    · rename_i none
      have met : requirement.MetBy m.visible :=
        (requirement.missing_eq_nil_iff m.visible).1 (List.isEmpty_iff.1 none)
      exact same _ _ rfl (Catalog.admits_of_gated route met)
    · rfl

/-- **A body is evaluated only behind its entry.** Two ways to evaluate bodies give the same call if
they agree where the journal begins with an entry for the callee, under the context that is visible,
and the callee is admitted there. So the journal misses no body that a call evaluates. -/
theorem checkedCall_eq_of_entered
    (same : ∀ s (n : Machine),
      n.world.entries = ⟨callee, n.visible, n.thread.depth, true⟩ :: m.world.entries →
      g.catalog.Admits callee n.visible → run s n = run' s n) :
    g.checkedCall run callee args m = g.checkedCall run' callee args m := by
  have followed : g.followWithin run callee args (m.afterCheck g.budget).enter =
      g.followWithin run' callee args (m.afterCheck g.budget).enter := by
    unfold followWithin
    split
    · rfl
    · refine follow_eq_of_entered fun s n entered admitted => same s n ?_ admitted
      rw [entered]
      exact congrArg _ (World.afterCheck_entries m.world g.budget)
  unfold checkedCall
  dsimp only
  split
  · rfl
  · split
    · unfold Activity.counted
      rw [followed]
    · rfl

end Gate

/-- **Every body is admitted when it is entered**, in every stretch of every evaluation, by whatever
gate on whatever machine, by its own thread and by the workers that it leaves behind. A body that no
rule admits is never entered: with any other body in its place the evaluation is the same. -/
theorem entered_bodies_are_admitted (g : Gate) (s : Script) (m : Machine) :
    (g.execute s m).Obeys (World.EntersAdmitted g.catalog)
      (fun r => Late.AllObey (World.EntersAdmitted g.catalog) r.late) m.world ∧
    ∀ standIn, (g.withBarred standIn).execute s = g.execute s := by
  have hentered : ∀ u v, World.Evolves g.catalog u v → World.EntersAdmitted g.catalog u v :=
    fun _ _ h => h.entersAdmitted
  constructor
  · exact (g.execute_obeys s m).mono hentered fun r hr l hl v =>
      (hr.late l hl v).mono hentered fun _ h => h
  · exact fun standIn => ((g.alike_withBarred standIn).execute_eq s).symm

end CapabilityGate
