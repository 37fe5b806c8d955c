import CapabilityGate.Sandbox.ByteSize
import CapabilityGate.Sandbox.Duration

/-!
# Settings of a run

How a run is isolated, how long it may take, how much memory it may use, and whether the grants of
its context are enforced. `Config.validate` refuses a run without time or with less than 1 MiB.
-/
namespace CapabilityGate

/-- What hosts a run. -/
inductive Isolation where
  | thread
  | process
deriving DecidableEq, Repr

namespace Isolation

/-- All kinds of isolation. -/
def all : List Isolation := [thread, process]

/-- The word for a kind of isolation. -/
def name : Isolation → String
  | thread => "thread"
  | process => "process"

/-- A text that names no kind of isolation. -/
structure Error where
  /-- The text in small letters, without surrounding blanks. -/
  word : String
deriving DecidableEq, Repr

/-- The explanation shown for such a text. -/
def Error.message (e : Error) : String :=
  s!"unsupported isolation '{e.word}'; expected 'thread' or 'process'"

/-- **`parse raw`** — reads a kind of isolation by one of its names, in any letter case. -/
def parse (raw : String) : Except Error Isolation :=
  let word := Text.lower (Text.trim raw)
  if word ∈ ["thread", "threads"] then .ok thread
  else if word ∈ ["process", "fork", "subprocess"] then .ok process
  else .error ⟨word⟩

end Isolation

/-- The settings of a run. -/
structure Config where
  timeout : Timeout
  memory : ByteSize
  /-- When false, the run holds the universal capability besides those of its context. -/
  security : Bool
  isolation : Isolation
deriving DecidableEq, Repr

namespace Config

/-- Five seconds, 256 MiB, grants enforced, on a thread. -/
def default : Config :=
  { timeout := Duration.ofSeconds 5, memory := .ofUnits 256 ByteSize.mib, security := true,
    isolation := .thread }

/-- The least memory that a run may be given. -/
def leastMemory : ByteSize := .ofUnits 1 ByteSize.mib

/-- Why settings are refused. -/
inductive Error where
  | noTime
  | memory
deriving DecidableEq, Repr

/-- The explanation shown for refused settings. -/
def Error.message : Error → String
  | noTime => "sandbox cpu_timeout must be greater than zero"
  | memory => "sandbox memory_limit must be at least " ++ leastMemory.display

/-- Refuses a run without time, and then one with too little memory. -/
def validate (c : Config) : Except Error Unit :=
  if c.timeout = .zero then .error .noTime
  else if c.memory.bytes < leastMemory.bytes then .error .memory
  else .ok ()

end Config

end CapabilityGate
