import CapabilityGate.Demo.Scenarios

/-!
# The program

Reads the command line and the files it names, runs the demonstration, and prints one document per
scenario and one line per denial. A command line that is not understood ends with status 2, and one
that is refused with status 1.
-/
namespace CapabilityGate.Program

/-- The bytes of a file as a text. -/
def textOfBytes (bytes : ByteArray) : Except FileError String :=
  match String.fromUTF8? bytes with
  | some s => .ok s
  | none => .error .notText

/-- Is `code` the number of an error, as it is or negated. -/
def isError (number code : UInt32) : Bool := code = number || code = 0 - number

/-- The number of the error that a part of a path is not a directory. -/
def notDirectoryError : UInt32 := 20

/-- The number of the error that a path or a part of it is too long. -/
def nameTooLongError : UInt32 := 36

/-- Reads a file. -/
def readFile (path : String) : IO (Except FileError String) := do
  try
    return textOfBytes (← IO.FS.readBinFile path)
  catch e =>
    match e with
    | .inappropriateType _ code _ =>
      return .error (if isError notDirectoryError code then .notDirectory else .directory)
    | .invalidArgument _ code _ =>
      return .error (if isError nameTooLongError code then .nameTooLong else .zeroInName)
    | .permissionDenied _ _ _ => return .error .denied
    | _ => return .error .missing

/-- Reads the files that a command line names. -/
def readNamed (a : Demo.Arguments) : IO (List (String × Except FileError String)) :=
  (a.config.toList ++ [a.readPath]).mapM fun path => return (path, ← readFile path)

/-- A random number that is not negative. -/
def drawNumber : IO Int64 := do
  return Int64.ofNat (← IO.rand 0 Int64.maxValue.toInt.toNat)

/-- Runs the demonstration and prints what it reports. -/
def runDemo (a : Demo.Arguments) : IO UInt32 := do
  let files ← readNamed a
  let surroundings : Demo.Surroundings :=
    { read := fun path => (findEntry path files).getD (.error .missing)
      randomNumber := ← drawNumber }
  match Demo.run a surroundings with
  | .error e =>
    IO.eprintln ("Error: " ++ e.message)
    return 1
  | .ok (reports, denials) =>
    for r in reports do
      IO.println r.toJson.pretty
    for d in denials do
      IO.println (Demo.violationLine d)
    return 0

/-- The options and what they take. -/
def helpText : String :=
  "Options: --config PATH, --grant GRANT, --isolation ISOLATION, --timeout-ms MS, --path PATH"

end CapabilityGate.Program

open CapabilityGate in
/-- The program: its arguments are the options of the demonstration. -/
def main (args : List String) : IO UInt32 := do
  match Demo.Arguments.parse .empty args with
  | .run a => Program.runDemo a
  | .information =>
    IO.println Program.helpText
    return 0
  | .usage =>
    IO.eprintln "error: the command line is not understood"
    return 2
