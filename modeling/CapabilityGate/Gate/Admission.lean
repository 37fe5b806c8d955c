import CapabilityGate.Gate.Activity
import CapabilityGate.Gate.Route

/-!
# Admission

The checkpoint itself. A call is checked against the budget of its gate, then for being callable at
all, then against the call depth of the thread, and then it takes the route that the catalog gives
it. A gated route compares what is required with what the active context holds; what is missing is
logged, one record per capability. The evaluation of a body is a parameter (`run`), so this module
says when bodies are entered and nothing about what they do.
-/
namespace CapabilityGate

/-- The gate calls that may be in progress on a thread at once. -/
def maxDepth : Nat := 256

/-- The fault of a call beyond the greatest depth. -/
def depthFault : Fault := .failed s!"maximum call depth ({maxDepth}) exceeded"

/-- A catalog, with the budget that every call through the gate is checked against. -/
structure Gate where
  catalog : Catalog Body
  budget : Option BudgetId

namespace Requirement

/-- **`r.missing visible`** — the required capabilities, in order, that are not held. -/
def missing (r : Requirement) (visible : Option Lineage) : List Capability :=
  r.capabilities.filter fun c => !visible.any fun l => l.holds c none true

end Requirement

/-- The capabilities that the active context holds. -/
def heldTypes (visible : Option Lineage) : List Capability :=
  match visible with
  | none => []
  | some l => l.types true

namespace Machine

/-- Logs one denial per missing capability. -/
def denyAll (m : Machine) (missing : List Capability) (resource : Option String)
    (operation : String) : Machine :=
  missing.foldl (fun m c => m.deny c resource operation) m

/-- The state after a check of a gate's budget. -/
def afterCheck (m : Machine) (budget : Option BudgetId) : Machine :=
  m.change (·.afterCheck budget)

end Machine

namespace Gate

/-- Enters a registered body. -/
def enterBody (run : Script → Activity Ending) (body : Body) (receiver callee : Value)
    (args : List Value) : Activity Ending :=
  fun m => run (body receiver args) (m.noteEntry callee true)

/-- Follows the route of a call. -/
def follow (g : Gate) (run : Script → Activity Ending) (callee : Value) (args : List Value) :
    Activity Ending := fun m =>
  match g.catalog.route callee with
  | .notCallable => Activity.refuse (.type s!"{callee.describe} is not callable") m
  | .gated symbol requirement receiver body =>
    let missing := requirement.missing m.visible
    if missing.isEmpty then enterBody run body receiver callee args m
    else
      Activity.refuse (.capability symbol missing (heldTypes m.visible))
        (m.denyAll missing (requirement.resource args) symbol)
  | .free receiver body => enterBody run body receiver callee args m
  | .primitive method receiver =>
    Activity.pure (.returned ((method.apply receiver args).mapError Misuse.fault))
      (m.noteEntry callee false)
  | .denied symbol origin => Activity.refuse (.security symbol origin g.catalog.callSources) m

/-- Follows the route of a call that has been counted, unless it is one too many. -/
def followWithin (g : Gate) (run : Script → Activity Ending) (callee : Value)
    (args : List Value) : Activity Ending := fun m =>
  if maxDepth < m.thread.depth then Activity.refuse depthFault m else g.follow run callee args m

/-- **`g.checkedCall run callee args`** — the one way from a script to a body. -/
def checkedCall (g : Gate) (run : Script → Activity Ending) (callee : Value)
    (args : List Value) : Activity Ending := fun m =>
  let checked := m.afterCheck g.budget
  if m.world.isExhausted g.budget then Activity.refuse (.exhausted .timeout) checked
  else if callee.isCallable then (g.followWithin run callee args).counted checked
  else Activity.refuse (.type s!"{callee.describe} is not callable") checked

/-- **`g.coveringToken c resource operation`** — the nearest token for `c` of the active context,
if it covers the resource; what is refused is logged. -/
def coveringToken (g : Gate) (c : Capability) (resource operation : String) (m : Machine) :
    Except Fault Token × Machine :=
  let checked := m.afterCheck g.budget
  if m.world.isExhausted g.budget then (.error (.exhausted .timeout), checked)
  else
    match checked.visible.bind fun l => l.token? c true with
    | some token =>
      if token.covers (some resource) then (.ok token, checked)
      else (.error (.resourceDenied c resource), checked.deny c (some resource) operation)
    | none => (.error (.resourceDenied c resource), checked.deny c (some resource) operation)

end Gate

end CapabilityGate
