import CapabilityGate.Decimal.Digits

/-!
# Command line of the demonstration

Options have a value, in the same argument after `=` or in the next one; a value of its own may not
start with a hyphen, unless it is only that. Every option but `--grant` may be given once. Besides
them there are only the requests for information, which are met as soon as they are read; of an
argument with one hyphen, the letter after it decides.
-/
namespace CapabilityGate.Demo

/-- The options of the demonstration. -/
structure Arguments where
  config : Option String
  grants : List String
  isolation : Option String
  timeoutMillis : Option Nat
  path : Option String
deriving DecidableEq, Repr

/-- What a command line asks for. -/
inductive Request where
  | run (arguments : Arguments)
  /-- The help or the version text. -/
  | information
  /-- The command line is not understood. -/
  | usage
deriving DecidableEq, Repr

namespace Arguments

/-- No options. -/
def empty : Arguments := ⟨none, [], none, none, none⟩

/-- The file that is read if none is named. -/
def defaultPath : String := "/data/example.txt"

/-- The file to read. -/
def readPath (a : Arguments) : String := a.path.getD defaultPath

/-- A natural number below 2^64; a plus sign may stand in front. -/
def number? (s : String) : Option Nat :=
  let ds := match s.toList with
    | '+' :: ds => ds
    | ds => ds
  if ds.isEmpty || !ds.all Decimal.isDigit then none
  else
    let n := Decimal.value ds
    if n < UInt64.size then some n else none

/-- Sets an option that may be given once. -/
def once {α : Type} (old : Option α) (new : α) (set : α → Arguments) : Option Arguments :=
  match old with
  | none => some (set new)
  | some _ => none

/-- Sets an option by its name. -/
def set? (a : Arguments) (name value : String) : Option Arguments :=
  if name = "config" then
    if value = "" then none else once a.config value fun v => { a with config := some v }
  else if name = "grant" then some { a with grants := a.grants ++ [value] }
  else if name = "isolation" then once a.isolation value fun v => { a with isolation := some v }
  else if name = "timeout-ms" then
    (number? value).bind fun n => once a.timeoutMillis n fun v => { a with timeoutMillis := some v }
  else if name = "path" then once a.path value fun v => { a with path := some v }
  else none

/-- Is this the name of an option. -/
def isOption (name : String) : Bool :=
  ["config", "grant", "isolation", "timeout-ms", "path"].contains name

/-- May an argument be the value of the option before it. -/
def isValue (s : String) : Bool := s = "-" || s.toList.head? ≠ some '-'

/-- The name and the value that an argument holds, without the two hyphens in front. -/
def splitOption (cs : List Char) : String × Option String :=
  match cs.dropWhile (· ≠ '=') with
  | [] => (String.ofList cs, none)
  | _ :: value => (String.ofList (cs.takeWhile (· ≠ '=')), some (String.ofList value))

/-- Reads arguments in order. -/
def parse (a : Arguments) : List String → Request
  | [] => .run a
  | arg :: rest =>
    if arg = "--help" ∨ arg = "--version" then .information
    else
      match arg.toList with
      | '-' :: 'h' :: _ => .information
      | '-' :: 'V' :: _ => .information
      | ['-', '-'] => if rest.isEmpty then .run a else .usage
      | '-' :: '-' :: cs =>
        match splitOption cs, rest with
        | (name, some value), rest =>
          match a.set? name value with
          | some a => a.parse rest
          | none => .usage
        | (name, none), value :: rest =>
          if isOption name && isValue value then
            match a.set? name value with
            | some a => a.parse rest
            | none => .usage
          else .usage
        | _, [] => .usage
      | _ => .usage

end Arguments

end CapabilityGate.Demo
