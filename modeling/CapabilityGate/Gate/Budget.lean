import CapabilityGate.Fault

/-!
# Budgets

A budget ends the gate calls of a run: from its deadline on, or once it is cancelled, every check
fails. The first failing check at the deadline cancels the budget, so it stays exhausted whatever
the clock says later.
-/
namespace CapabilityGate

/-- A point in time, in nanoseconds since the epoch. -/
abbrev Time := Nat

/-- The number of a budget. -/
abbrev BudgetId := Nat

/-- A deadline and whether the budget has been cancelled. -/
structure Budget where
  deadline : Time
  cancelled : Bool
deriving DecidableEq, Repr

namespace Budget

/-- Is a check of the budget at this time refused. -/
def isExhausted (b : Budget) (now : Time) : Bool := b.cancelled || b.deadline ≤ now

/-- The budget after it is cancelled. -/
def cancel (b : Budget) : Budget := { b with cancelled := true }

/-- The budget after a check at this time. -/
def checked (b : Budget) (now : Time) : Budget := if b.isExhausted now then b.cancel else b

end Budget

end CapabilityGate
