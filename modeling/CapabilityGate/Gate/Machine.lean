import CapabilityGate.Audit.Log
import CapabilityGate.Gate.Budget
import CapabilityGate.Gate.Register
import CapabilityGate.Gate.Script
import CapabilityGate.Sandbox.Settlement

/-!
# The state of an evaluation

`World` is what all threads of a process share: contexts and their names, the log of denials,
switches, budgets, the reports for the host, the settlement of thread runs, the clock, and what the
process itself may still do. `Thread` is what one thread has for itself: its register and its call
depth. A `Machine` is a world seen from one thread.
-/
namespace CapabilityGate

/-- The entry of a body, as it was admitted: on which callee, with which context visible, at which
call depth, and whether the body is a registered one. -/
structure Entry where
  callee : Value
  visible : Option Lineage
  depth : Nat
  registered : Bool

/-- What the threads of a process share. -/
structure World where
  store : Store
  /-- The shared contexts that go by a name. -/
  names : List (String × ContextId)
  log : Log
  /-- The switches that have been thrown. -/
  revoked : List Revocation
  /-- All budgets, oldest first; a budget's number is the number of budgets before it. -/
  budgets : List Budget
  /-- The budget of the host, if it has one. -/
  hostBudget : Option BudgetId
  /-- The results reported to the host, oldest first. -/
  reports : List Result
  /-- How many contexts have been activated. -/
  activations : Nat
  /-- The thread runs and the count of detached workers. -/
  pool : Pool
  clock : Time
  /-- The bodies that were entered, newest first. -/
  entries : List Entry
  /-- The memory that the process may use, if it is limited. -/
  memory : Option ByteSize
  /-- The signals whose handlers are used up. -/
  spent : List Nat

namespace World

/-- The world before anything happened. -/
def initial : World :=
  { store := .empty, names := [], log := .empty, revoked := [], budgets := [], hostBudget := none,
    reports := [], activations := 0, pool := .empty, clock := 0, entries := [], memory := none,
    spent := [] }

/-- The world once the clock has come to `time`; the clock never goes back. -/
def reach (w : World) (time : Time) : World := { w with clock := max w.clock time }

/-- The shared context that goes by this name. -/
def context? (w : World) (name : String) : Option ContextId := findEntry name w.names

/-- Has the switch been thrown by now. -/
def isRevoked (w : World) (r : Revocation) : Bool := w.revoked.contains r

/-- Throws a switch. -/
def revoke (w : World) (r : Revocation) : World := { w with revoked := r :: w.revoked }

/-- Makes a budget with this deadline; its number is the number of budgets before. -/
def addBudget (w : World) (deadline : Time) : World :=
  { w with budgets := w.budgets ++ [⟨deadline, false⟩] }

/-- Changes a budget. -/
def changeBudget (w : World) (id : BudgetId) (f : Budget → Budget) : World :=
  match w.budgets[id]? with
  | none => w
  | some b => { w with budgets := w.budgets.set id (f b) }

/-- Cancels a budget. -/
def cancel (w : World) (id : BudgetId) : World := w.changeBudget id Budget.cancel

/-- Cancels the budget that the host has now. -/
def cancelHost (w : World) : World :=
  match w.hostBudget with
  | none => w
  | some id => w.cancel id

/-- Is a check of the budget refused now; without a budget none is. -/
def isExhausted (w : World) (budget : Option BudgetId) : Bool :=
  match budget.bind fun id => w.budgets[id]? with
  | none => false
  | some b => b.isExhausted w.clock

/-- The world after a check of the budget. -/
def afterCheck (w : World) (budget : Option BudgetId) : World :=
  match budget with
  | none => w
  | some id => w.changeBudget id (·.checked w.clock)

/-- Hands a result to the host. -/
def report (w : World) (result : Result) : World := { w with reports := w.reports ++ [result] }

/-- Logs a denial. -/
def deny (w : World) (record : Record) : World := { w with log := w.log.append record }

/-- One more holder of a context. -/
def hold (w : World) (context : ContextId) : World := { w with store := w.store.hold context }

/-- One holder of a context less. -/
def release (w : World) (context : ContextId) : World :=
  { w with store := w.store.release context }

/-- May the process be given so many bytes. -/
def affords (w : World) (bytes : Nat) : Bool :=
  match w.memory with
  | none => true
  | some limit => bytes < limit.bytes.toNat

/-- The copy of a world that a new process starts with: its log and its journal are empty, and it
has a memory limit of its own. -/
def fork (w : World) (memory : ByteSize) : World :=
  { w with log := .empty, entries := [], memory := some memory }

end World

/-- What a thread has for itself. -/
structure Thread where
  register : Register
  /-- The gate calls in progress. -/
  depth : Nat
deriving DecidableEq, Repr

/-- A thread on which nothing has happened. -/
def Thread.initial : Thread := ⟨none, 0⟩

/-- A world seen from one thread. -/
structure Machine where
  world : World
  thread : Thread

namespace Machine

/-- Nothing has happened yet. -/
def initial : Machine := ⟨.initial, .initial⟩

/-- **`m.visible`** — the context that is active on the thread, with its parents. -/
def visible (m : Machine) : Option Lineage :=
  (m.thread.register.visible m.world.isRevoked).map m.world.store.lineageOf

/-- The machine after a change of the world. -/
def change (m : Machine) (f : World → World) : Machine := { m with world := f m.world }

/-- Activates a context; whoever does so holds it. -/
def activate (m : Machine) (context : ContextId) (revocation : Option Revocation) : Machine :=
  let w := m.world.hold context
  { world := { w with activations := w.activations + 1 }
    thread := { m.thread with register := m.thread.register.activate context revocation } }

/-- Drops the guard of an activation: puts back what the register held before. -/
def restore (m : Machine) (context : ContextId) (previous : Register) : Machine :=
  { world := m.world.release context
    thread := { m.thread with register := previous } }

/-- One more gate call is in progress. -/
def enter (m : Machine) : Machine :=
  { m with thread := { m.thread with depth := m.thread.depth + 1 } }

/-- One gate call less is in progress. -/
def leave (m : Machine) : Machine :=
  { m with thread := { m.thread with depth := m.thread.depth - 1 } }

/-- Notes that a body is entered. -/
def noteEntry (m : Machine) (callee : Value) (registered : Bool) : Machine :=
  let entry := ⟨callee, m.visible, m.thread.depth, registered⟩
  m.change fun w => { w with entries := entry :: w.entries }

/-- Logs a denial with the present time. -/
def deny (m : Machine) (capability : Capability) (resource : Option String) (operation : String) :
    Machine :=
  m.change (·.deny ⟨capability, resource, operation, m.world.clock⟩)

end Machine

end CapabilityGate
