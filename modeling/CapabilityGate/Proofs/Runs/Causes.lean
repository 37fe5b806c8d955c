import CapabilityGate.Proofs.Wire.Value
import CapabilityGate.Sandbox.Run

/-!
# Causes of an outcome

What may have decided a run, and what its caller has to be told of it. `Fault.HasKind` and
`Fault.Says` spell out the kind and the explanation of every fault, `Signal.Means` what the number of
a signal stands for, and `Cause.FailsWith` puts them together. They are relations of their own, which
ask no function of the program; that its tables agree with them is proved here (`Fault.hasKind_iff`,
`Fault.says_iff`, `Signal.means_iff`).

`Outcome.Classified` says that an outcome is well formed and tells its cause. Where an outcome has no
value, it is enough that its failure is the one that its cause is (`Cause.FailsWith.classified`), and
then it is this failure and no other (`Outcome.Classified.failure_eq`).
-/
namespace CapabilityGate

/-! ## Faults -/

namespace Fault

/-- **`f.HasKind kind`** — the kind of a fault, one rule for each form of it. -/
inductive HasKind : Fault → FailureKind → Prop
  | type (message : String) : HasKind (.type message) .type
  | security (symbol origin : String) (sources : List String) :
      HasKind (.security symbol origin sources) .security
  | capability (symbol : String) (missing held : List Capability) :
      HasKind (.capability symbol missing held) .capability
  | resourceDenied (capability : Capability) (resource : String) :
      HasKind (.resourceDenied capability resource) .resourceDenied
  | timeout : HasKind (.exhausted .timeout) .timeout
  | memory : HasKind (.exhausted .memory) .memory
  | failed (message : String) : HasKind (.failed message) .failed

/-- The names of capabilities as they are listed in an explanation. -/
def listed (cs : List Capability) : String := ", ".intercalate (cs.map Capability.name)

/-- **`f.Says text`** — the explanation of a fault, with everything that the fault knows. -/
inductive Says : Fault → String → Prop
  | type (message : String) : Says (.type message) ("type error: " ++ message)
  | security (symbol origin : String) (sources : List String) :
      Says (.security symbol origin sources)
        ("security error: call to '" ++ symbol ++ "' (from " ++ origin ++
          ") is not allowed; allowed call sources: " ++ ", ".intercalate sources)
  | capability (symbol : String) (missing held : List Capability) :
      Says (.capability symbol missing held)
        ("capability error: '" ++ symbol ++ "' requires [" ++ listed missing ++ "]; held: [" ++
          listed held ++ "]")
  | resourceDenied (capability : Capability) (resource : String) :
      Says (.resourceDenied capability resource)
        ("resource denied: '" ++ resource ++ "' is outside the '" ++ capability.name ++ "' grant")
  | timeout : Says (.exhausted .timeout) "resource limit exceeded: timeout"
  | memory : Says (.exhausted .memory) "resource limit exceeded: memory"
  | failed (message : String) : Says (.failed message) message

variable {f : Fault} {kind : FailureKind} {text : String}

theorem hasKind_ofFault (f : Fault) : f.HasKind (.ofFault f) := by
  cases f with
  | exhausted limit => cases limit <;> constructor
  | _ => constructor

theorem HasKind.unique {other : FailureKind} (h : f.HasKind kind) (h' : f.HasKind other) :
    kind = other := by
  cases h <;> cases h' <;> rfl

theorem hasKind_iff : f.HasKind kind ↔ kind = .ofFault f := by
  constructor
  · exact fun h => h.unique f.hasKind_ofFault
  · rintro rfl
    exact f.hasKind_ofFault

theorem says_message (f : Fault) : f.Says f.message := by
  cases f with
  | type m => exact .type m
  | security symbol origin sources => exact .security symbol origin sources
  | capability symbol missing held => exact .capability symbol missing held
  | resourceDenied c resource => exact .resourceDenied c resource
  | exhausted limit =>
    cases limit with
    | timeout => exact .timeout
    | memory => exact .memory
  | failed m => exact .failed m

theorem Says.unique {other : String} (h : f.Says text) (h' : f.Says other) : text = other := by
  cases h <;> cases h' <;> rfl

theorem says_iff : f.Says text ↔ text = f.message := by
  constructor
  · exact fun h => h.unique f.says_message
  · rintro rfl
    exact f.says_message

end Fault

/-! ## Signals -/

namespace Signal

/-- **`Means number silent kind`** — what a signal that killed a process stands for; `silent` says
that there was no response. A worker sets the limit for its processor time itself (24). Only the
system ends it at once before its deadline, and that is how it takes memory back (9). A worker that
was refused memory gives up (6) or goes on where there is none (7, 11), and cannot answer any more. -/
inductive Means : Nat → Bool → FailureKind → Prop
  | time (silent : Bool) : Means 24 silent .timeout
  | kill (silent : Bool) : Means 9 silent .memory
  | abort : Means 6 true .memory
  | badPage : Means 7 true .memory
  | badAddress : Means 11 true .memory
  | other {number : Nat} {silent : Bool} (neither : number ∉ [9, 24])
      (answered : silent = true → number ∉ [6, 11, 7]) : Means number silent .internal

variable {number : Nat} {silent : Bool} {kind : FailureKind}

theorem meansMemory_iff :
    meansMemory number silent = true ↔
      number = kill ∨ silent = true ∧ number ∈ [abort, badAddress, badPage] := by
  simp [meansMemory, memorySignals]

theorem means_memory (memory : meansMemory number silent = true) :
    Means number silent .memory := by
  obtain rfl | ⟨rfl, member⟩ := meansMemory_iff.mp memory
  · exact .kill silent
  · simp only [List.mem_cons, List.not_mem_nil, or_false] at member
    obtain rfl | rfl | rfl := member
    · exact .abort
    · exact .badAddress
    · exact .badPage

theorem means_internal (notTime : number ≠ time) (notMemory : ¬ meansMemory number silent = true) :
    Means number silent .internal := by
  rw [meansMemory_iff] at notMemory
  refine .other ?_ fun silent member => notMemory (.inr ⟨silent, member⟩)
  intro member
  rcases List.mem_pair.mp member with same | same
  · exact notMemory (.inl same)
  · exact notTime same

/-- The order in which the program asks decides nothing. -/
theorem means_iff :
    Means number silent kind ↔
      kind = if number = time then .timeout
        else if meansMemory number silent then .memory else .internal := by
  constructor
  · intro h
    cases h with
    | other neither answered =>
      have notTime : number ≠ time := fun same => neither (same ▸ by decide)
      have notMemory : ¬ meansMemory number silent = true := by
        rw [meansMemory_iff]
        rintro (same | ⟨silent, member⟩)
        · exact neither (same ▸ by decide)
        · exact answered silent member
      rw [if_neg notTime, if_neg notMemory]
    | _ => rfl
  · rintro rfl
    by_cases atTime : number = time
    · rw [if_pos atTime, atTime]
      exact .time silent
    · rw [if_neg atTime]
      by_cases memory : meansMemory number silent
      · rw [if_pos memory]
        exact means_memory memory
      · rw [if_neg memory]
        exact means_internal atTime memory

theorem Means.unique {other : FailureKind} (h : Means number silent kind)
    (h' : Means number silent other) : kind = other :=
  (means_iff.mp h).trans (means_iff.mp h').symm

end Signal

/-! ## Causes -/

/-- A limit that a worker process sets itself before it begins. -/
inductive SystemLimit where
  | addressSpace
  | processorTime
deriving DecidableEq, Repr

namespace SystemLimit

/-- What the system calls the limit. -/
def name : SystemLimit → String
  | addressSpace => "RLIMIT_AS"
  | processorTime => "RLIMIT_CPU"

/-- The fault of a worker to which the system refuses the limit. -/
def fault (limit : SystemLimit) (reason : String) : Fault :=
  .failed s!"sandbox: {limit.name} failed: {reason}"

end SystemLimit

/-- What decides a run. -/
inductive Cause where
  /-- Its unit ended. -/
  | ended (ending : Ending)
  /-- The system refused a limit, so that the unit did not begin. -/
  | limit (limit : SystemLimit) (reason : String)
  /-- Its unit did not end in time. -/
  | deadline
  /-- A signal killed its process; `silent` says that there was no response. -/
  | signal (number : Nat) (silent : Bool)
  /-- Its unit could not be started, or it cannot be known what became of it. -/
  | host

/-- **`c.FailsWith kind source`** — the failure that a cause is: its kind, and the fault that it comes
from if there is one. To end with a value is no failure. -/
inductive Cause.FailsWith : Cause → FailureKind → Option Fault → Prop
  | fault {f : Fault} {kind : FailureKind} (h : f.HasKind kind) :
      FailsWith (.ended (.returned (.error f))) kind (some f)
  | panic (payload : Option String) : FailsWith (.ended (.panicked payload)) .panic none
  | limit (l : SystemLimit) (reason : String) :
      FailsWith (.limit l reason) .failed (some (l.fault reason))
  | deadline : FailsWith .deadline .timeout none
  | signal {number : Nat} {silent : Bool} {kind : FailureKind}
      (h : Signal.Means number silent kind) : FailsWith (.signal number silent) kind none
  | host : FailsWith .host .internal none

/-! ## Classified outcomes -/

/-- **`o.Classified cause`** — an outcome is well formed and tells its cause. A value is one that the
unit has returned, perhaps as it is read from its text. A failure with a source is the failure of
exactly that fault, with which the unit or the setting of a limit has ended; one without a source is
a panic, an exhausted limit or the fault of the host; and either is the failure that the cause is. -/
structure Outcome.Classified (cause : Cause) (o : Outcome) : Prop where
  success_iff : o.success = true ↔ o.value.isSome
  value_iff : o.value.isSome ↔ o.failure = none
  value : ∀ v, o.value = some v →
    ∃ u, cause = .ended (.returned (.ok u)) ∧ (v = u ∨ u.reread? = some v)
  sourced : ∀ e f, o.failure = some e → e.source = some f →
    f.HasKind e.kind ∧ f.Says e.message ∧
      (cause = .ended (.returned (.error f)) ∨ ∃ l reason, cause = .limit l reason ∧
        f = l.fault reason)
  unsourced : ∀ e, o.failure = some e → e.source = none →
    e.kind ∈ [.panic, .timeout, .memory, .internal]
  failure : ∀ e, o.failure = some e → cause.FailsWith e.kind e.source

section Classified

variable {cause : Cause} {kind : FailureKind} {source : Option Fault} {message : String}
  {elapsed : Duration} {o : Outcome}

theorem Cause.FailsWith.sourced {f : Fault} (h : cause.FailsWith kind (some f)) :
    f.HasKind kind ∧ (cause = .ended (.returned (.error f)) ∨
      ∃ l reason, cause = .limit l reason ∧ f = l.fault reason) := by
  cases h with
  | fault h => exact ⟨h, .inl rfl⟩
  | limit l reason => exact ⟨.failed _, .inr ⟨l, reason, rfl, rfl⟩⟩

theorem Cause.FailsWith.unsourced (h : cause.FailsWith kind none) :
    kind ∈ [.panic, .timeout, .memory, .internal] := by
  cases h with
  | signal h => cases h <;> decide
  | _ => decide

theorem Cause.FailsWith.unique {kind' : FailureKind} {source' : Option Fault}
    (h : cause.FailsWith kind source) (h' : cause.FailsWith kind' source') :
    kind = kind' ∧ source = source' := by
  cases h with
  | fault h =>
    cases h' with
    | fault h' => exact ⟨h.unique h', rfl⟩
  | signal h =>
    cases h' with
    | signal h' => exact ⟨h.unique h', rfl⟩
  | _ =>
    cases h'
    exact ⟨rfl, rfl⟩

/-- An outcome without a value, with the failure that the cause is, tells this cause. -/
theorem Cause.FailsWith.classified (h : cause.FailsWith kind source)
    (explained : ∀ f, source = some f → f.Says message) :
    (⟨false, none, some ⟨kind, message, source⟩, elapsed⟩ : Outcome).Classified cause where
  success_iff := by simp
  value_iff := by simp
  value v none := absurd none.symm (Option.some_ne_none v)
  sourced e f same origin := by
    cases same
    cases origin
    obtain ⟨kind, produced⟩ := h.sourced
    exact ⟨kind, explained f rfl, produced⟩
  unsourced e same origin := by
    cases same
    cases origin
    exact h.unsourced
  failure e same := by
    cases same
    exact h

/-- An outcome that tells a cause for a failure has this failure, and explains its source. -/
theorem Outcome.Classified.failure_eq (classified : o.Classified cause)
    (h : cause.FailsWith kind source) :
    ∃ message, o.failure = some ⟨kind, message, source⟩ ∧
      ∀ f, source = some f → f.Says message := by
  cases failed : o.failure with
  | none =>
    obtain ⟨v, returned⟩ := Option.isSome_iff_exists.mp (classified.value_iff.mpr failed)
    obtain ⟨u, rfl, -⟩ := classified.value v returned
    cases h
  | some e =>
    obtain ⟨rfl, rfl⟩ := h.unique (classified.failure e failed)
    exact ⟨e.message, rfl, fun f origin => (classified.sourced e f failed origin).2.1⟩

end Classified

end CapabilityGate
