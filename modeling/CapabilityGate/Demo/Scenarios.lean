import CapabilityGate.Demo.Arguments
import CapabilityGate.Sandbox.Run
import CapabilityGate.Settings.Basic

/-!
# The demonstration

Five code units that show what the gate does: one reads a file, one draws a random number, one calls
what was never vetted, one calls what cannot be called, and one never stops. Each runs in the
sandbox with the context that the settings hand out, and the denials are listed at the end.
-/
namespace CapabilityGate.Demo

/-- The name of the program's module. -/
def mainModule : String := "__main__"

/-- The capability of reading files. -/
def fileRead : Capability := ⟨"file.read"⟩

/-- The capability of drawing random numbers. -/
def random : Capability := ⟨"crypto.random"⟩

/-- What the bodies get from outside: the files, and one random number. -/
structure Surroundings where
  read : String → Except FileError String
  randomNumber : Int64

/-- Reads a file that the grant for reading covers. -/
def fileBody (s : Surroundings) : Body := fun _ args =>
  match args.head?.bind Value.text? with
  | none => .finish (.error (.type "fs.read_text(path: str)"))
  | some path =>
    .require fileRead path "fs.read_text" fun
      | .error f => .finish (.error f)
      | .ok _ =>
        match s.read path with
        | .ok text => .finish (.ok (.str text))
        | .error e => .finish (.error (.failed (s!"fs.read_text: {path}: " ++ e.message)))

/-- Counts the characters of a file. -/
def mainBody : Body := fun _ args =>
  .call (.function "fs.read_text") args fun
    | .error f => .finish (.error f)
    | .ok contents => .call (.method contents "len") [] .finish

/-- What the demonstration registers. -/
def registrations (s : Surroundings) : List (Registration Body) :=
  [.library "fs" "fs.read_text" (.of [fileRead] (some 0)) (fileBody s),
   .library "crypto" "crypto.random_u64" (.of [random] none)
     fun _ _ => .finish (.ok (.int s.randomNumber)),
   .foreign "os" "os.system" fun _ _ => .finish (.error (.failed "os.system must never run")),
   .program "main" mainBody]

/-- Calls again and again, each time after so much time. -/
def spin (time : Duration) : Nat → Script
  | 0 => .finish (.ok .unit)
  | rounds + 1 =>
    .call (.method (.str "spin") "upper") [] fun
      | .error f => .finish (.error f)
      | .ok _ => .sleep time (spin time rounds)

/-- The code units by name. The last one spins for longer than its run may take. -/
def scenarios (path : String) (timeout : Duration) : List (String × Script) :=
  [("read_file", .call (.function "main") [.str path] .finish),
   ("random", .call (.function "crypto.random_u64") [] .finish),
   ("unvetted_call", .call (.function "os.system") [.str "id"] .finish),
   ("not_callable", .call (.int 42) [] .finish),
   ("runaway_loop", spin timeout 2)]

/-- How one scenario ended. -/
structure Report where
  scenario : String
  outcome : Outcome

/-- The document for a report. -/
def Report.toJson (r : Report) : Json :=
  .object [("scenario", .string r.scenario), ("outcome", r.outcome.toJson)]

/-- The line for a denial. -/
def violationLine (r : Record) : String :=
  s!"violation: {r.capability.name} on {r.operation} (resource: " ++ r.resource.getD "-" ++ ")"

/-- Why the demonstration does not start. -/
inductive Error where
  | load (e : Settings.LoadError)
  | grant (e : Grant.Error)
  | isolation (e : Isolation.Error)
  | noTime
  | config (e : Config.Error)
  | pattern (e : Pattern.Error)
  | catalog (d : Duplicates)

/-- The explanation shown when the demonstration does not start. -/
def Error.message : Error → String
  | load e => e.message
  | grant e => e.message
  | isolation e => e.message
  | noTime => "--timeout-ms must be >= 1"
  | config e => e.message
  | pattern e => e.message
  | catalog d => d.message

/-- The settings of a file if one is named. -/
def loadSettings [Engine] (a : Arguments) (s : Surroundings) : Except Error Settings :=
  match a.config with
  | none => .ok Settings.default
  | some path => (Settings.load path (s.read path)).mapError .load

/-- The settings after the grants and options of the command line. -/
def settings [Engine] (a : Arguments) (s : Surroundings) : Except Error Settings := do
  let base ← loadSettings a s
  let grants ← a.grants.mapM fun raw => (Grant.parse raw).mapError Error.grant
  let isolation ←
    match a.isolation with
    | none => .ok base.sandbox.isolation
    | some raw => (Isolation.parse raw).mapError Error.isolation
  if a.timeoutMillis = some 0 then .error .noTime
  let timeout := (a.timeoutMillis.map Duration.ofMillis).getD base.sandbox.timeout
  let sandbox := { base.sandbox with isolation, timeout }
  sandbox.validate.mapError Error.config
  return ⟨sandbox, base.grants ++ grants⟩

/-- Runs scenarios one after the other. -/
def runAll (g : Gate) (context : ContextId) (config : Config) :
    List (String × Script) → Activity (List Report)
  | [] => Activity.pure []
  | (name, unit) :: rest =>
    (g.launch context config unit).bind fun outcome =>
      (runAll g context config rest).bind fun reports => Activity.pure (⟨name, outcome⟩ :: reports)

/-- The reports of a demonstration and the denials in its world; none if its process has ended. -/
def results (c : Course (Return (List Report))) : List Report × List Record :=
  match c.finish with
  | .ok (r, w) => (r.result, w.log.records)
  | .error _ => ([], [])

/-- **`run a s`** — the reports of all scenarios and the denials. -/
def run [Engine] (a : Arguments) (s : Surroundings) : Except Error (List Report × List Record) := do
  let settings ← settings a s
  let catalog ← (Catalog.build mainModule (registrations s)).mapError Error.catalog
  let context ← (settings.rootContext "demo").mapError Error.pattern
  let world := { World.initial with store := World.initial.store.share context }
  let scenarios := scenarios a.readPath settings.sandbox.timeout
  let all := runAll ⟨catalog, none⟩ 0 settings.sandbox scenarios
  return results (all ⟨world, .initial⟩)

end CapabilityGate.Demo
