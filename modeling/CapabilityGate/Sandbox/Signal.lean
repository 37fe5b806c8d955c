/-!
# Signals

What becomes of a process that raises a signal, and how a process ends without a result. Most
signals kill. A few do nothing: a worker ignores them, or cannot raise them at all. The two signals
of a bad memory access are handled: the handler lets the process go on, but it is used up by that,
so the next signal of the same number kills.
-/
namespace CapabilityGate

/-- How a process ends without a result. -/
inductive Death where
  /-- Killed by a signal. -/
  | signal (number : Nat)
  /-- Ended by itself, with a status. -/
  | exit (status : Nat)
  /-- Stopped for good, so that only its deadline can end it. -/
  | stopped
deriving DecidableEq, Repr

namespace Signal

/-- The signal of a process that is refused memory. -/
def abort : Nat := 6

/-- The signal of an access to memory that is not there in the file behind it. -/
def badPage : Nat := 7

/-- The signal that ends a process at once. -/
def kill : Nat := 9

/-- The signal of an access to memory that the process has not got. -/
def badAddress : Nat := 11

/-- The signal that stops a process at once. -/
def stop : Nat := 19

/-- The signal of a process that used up its processor time. -/
def time : Nat := 24

/-- The greatest number of a signal. -/
def greatest : Nat := 64

/-- The signals that do nothing: those of a pipe without a reader, of a child's end, of going on, of
a terminal's three ways to stop its processes, of urgent data and of a window's size; and the two
that threads keep for themselves. -/
def idle : List Nat := [13, 17, 18, 20, 21, 22, 23, 28, 32, 33]

/-- The signals that have a handler, which serves once. -/
def handled : List Nat := [badPage, badAddress]

/-- **`raise spent number`** — what becomes of a process that raises a signal, when the handlers of
the signals in `spent` are used up: the handlers used up afterwards, or the end of the process. -/
def raise (spent : List Nat) (number : Int) : Except Death (List Nat) :=
  let n := number.toNat
  if n = 0 ∨ greatest < n ∨ n ∈ idle then .ok spent
  else if n ∈ handled ∧ n ∉ spent then .ok (n :: spent)
  else if n = stop then .error .stopped
  else .error (.signal n)

end Signal

end CapabilityGate
