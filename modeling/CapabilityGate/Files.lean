import CapabilityGate.Text.Search

/-!
# A directory with files

The files that can be seen from a working directory, and what is wrong with a path that leads to
none of them. A path is walked part by part, so that blank parts, `.` and `..` mean what they mean
in a file system, and the first part that leads nowhere decides. Outside of the working directory
nothing is known but that the directories around it are there.
-/
namespace CapabilityGate

/-- Why a file could not be read. -/
inductive FileError where
  | missing
  | directory
  | denied
  /-- A part of the path is a file, and something is looked for inside it. -/
  | notDirectory
  | nameTooLong
  /-- No path holds a zero character. -/
  | zeroInName
  | notText
deriving DecidableEq, Repr

/-- The explanation of a file that could not be read. -/
def FileError.message : FileError → String
  | missing => "No such file or directory (os error 2)"
  | directory => "Is a directory (os error 21)"
  | denied => "Permission denied (os error 13)"
  | notDirectory => "Not a directory (os error 20)"
  | nameTooLong => "File name too long (os error 36)"
  | zeroInName => "file name contained an unexpected NUL byte"
  | notText => "stream did not contain valid UTF-8"

/-- One part of a path. -/
abbrev FileName := List Char

namespace FileName

/-- The name for the directory that a directory is in. -/
def up : FileName := ['.', '.']

/-- The name that stands for the directory that everything is in. -/
def root : FileName := ['/']

/-- Does the name stand for the directory itself. -/
def isHere (n : FileName) : Bool := n = [] || n = ['.']

/-- The bytes that a name may have. -/
def maxBytes : Nat := 255

/-- Has the name too many bytes. -/
def isTooLong (n : FileName) : Bool := maxBytes < (String.ofList n).utf8ByteSize

end FileName

/-- The names on the way from the working directory, or from the root if that comes first; nothing
but the leading names is `..`. -/
abbrev Place := List FileName

namespace Place

/-- Is this a directory around the working directory, or the working directory. -/
def isAround (p : Place) : Bool := p = [FileName.root] || p.all (· = FileName.up)

/-- The directory that a place is in. -/
def parent (p : Place) : Place :=
  if p = [FileName.root] then p else if p.isAround then p ++ [FileName.up] else p.dropLast

end Place

/-- The contents of files by their places; a file that is no text has none. -/
structure Files where
  contents : List (Place × Option String)

namespace Files

/-- No files. -/
def empty : Files := ⟨[]⟩

/-- The files with these paths and texts, in directories that are there. -/
def ofList (fs : List (String × String)) : Files :=
  ⟨fs.map fun f => ((Text.fields '/' f.1.toList).filter fun n => !FileName.isHere n, some f.2)⟩

/-- The file at a place. -/
def file? (fs : Files) (p : Place) : Option (Option String) :=
  (fs.contents.find? (·.1 = p)).map (·.2)

/-- Is there a directory at a place. -/
def isDirectory (fs : Files) (p : Place) : Bool :=
  p.isAround || fs.contents.any fun f => p.isPrefixOf f.1 && p ≠ f.1

/-- Follows one part of a path. -/
def walk (fs : Files) (p : Place) (name : FileName) : Except FileError Place :=
  if (fs.file? p).isSome then .error .notDirectory
  else if name.isTooLong then .error .nameTooLong
  else if name.isHere then .ok p
  else if name = FileName.up then .ok p.parent
  else
    let next := p ++ [name]
    if (fs.file? next).isSome || fs.isDirectory next then .ok next else .error .missing

/-- The bytes that a path may have. -/
def maxPathBytes : Nat := 4095

/-- Where the walk along a path begins, and the parts of the path. -/
def route (path : String) : Except FileError (Place × List FileName) :=
  let cs := path.toList
  if cs.contains (Char.ofNat 0) then .error .zeroInName
  else if cs = [] then .error .missing
  else if maxPathBytes < path.utf8ByteSize then .error .nameTooLong
  else .ok (if cs.head? = some '/' then [FileName.root] else [], Text.fields '/' cs)

/-- **`fs.read path`** — the text of the file that a path leads to. -/
def read (fs : Files) (path : String) : Except FileError String := do
  let (start, names) ← route path
  match fs.file? (← names.foldlM fs.walk start) with
  | none => .error .directory
  | some none => .error .notText
  | some (some text) => return text

/-- **`fs.write path text`** — the files after one is written, in a directory that has to be there;
nothing changes if the path cannot be a file. -/
def write (fs : Files) (path : String) (text : Option String) : Files :=
  match route path with
  | .error _ => fs
  | .ok (start, names) =>
    match names.dropLast.foldlM fs.walk start, names.getLast? with
    | .ok directory, some name =>
      let place := directory ++ [name]
      if name.isHere || name = FileName.up || name.isTooLong || fs.isDirectory place ||
          (fs.file? directory).isSome then fs
      else ⟨(place, text) :: fs.contents⟩
    | _, _ => fs

end Files

end CapabilityGate
