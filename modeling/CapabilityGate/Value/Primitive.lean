import CapabilityGate.Decimal.Layout
import CapabilityGate.Fault
import CapabilityGate.Text.Case
import CapabilityGate.Text.Search
import CapabilityGate.Value.Basic

/-!
# Methods of the primitive kinds

The closed list of methods that any code may call on values of the primitive kinds. Each is a pure
function of its receiver and arguments. `surface` is the table by kind and name; a name that is not
in it does not exist, and no name starts with an underscore. A method can be applied to a receiver
of another kind; it then says which kind it wants. `Misuse` lists everything that can go wrong.
-/
namespace CapabilityGate

/-- A method of the table. -/
inductive Primitive where
  | textLength
  | textUpper
  | textLower
  | textTrim
  | textSplit
  | textStartsWith
  | textEndsWith
  | textReplace
  | textContains
  | bytesLength
  | itemsLength
  | itemsGet
  | itemsContain
  | itemsAppend
  | itemsReverse
  | entriesLength
  | entriesGet
  | entriesKeys
  | entriesContain
  | integerAbs
  | floatingAbs
  | floatingRound
  | scalarText
deriving DecidableEq, Repr

/-- What can go wrong in a method of the table. -/
inductive Misuse where
  /-- Not the one number of arguments that the method takes. -/
  | argumentCount (method : String) (expected got : Nat)
  /-- More than the one argument that `split` may have. -/
  | tooManyArguments (got : Nat)
  /-- The argument at this position is of another kind than `wanted`. -/
  | argumentKind (method : String) (position : Nat) (wanted : Kind)
  /-- The receiver is of none of the wanted kinds. -/
  | receiverKind (wanted : List Kind)
  /-- The receiver has no text form. -/
  | noText (kind : Kind)
  /-- Cutting at the empty text. -/
  | emptySeparator
  /-- No item at this position. -/
  | indexOutOfRange (index : Int64)
  /-- The smallest integer has no absolute value in its range. -/
  | integerOverflow
deriving DecidableEq, Repr

/-- The fault that a misuse is reported as. -/
def Misuse.fault : Misuse → Fault
  | argumentCount method expected got =>
    .type s!"{method}() takes {Decimal.natText expected} argument(s), got {Decimal.natText got}"
  | tooManyArguments got => .type s!"split() takes at most 1 argument, got {Decimal.natText got}"
  | argumentKind method position wanted =>
    .type s!"{method}() argument {Decimal.natText position} must be {wanted.name}"
  | receiverKind wanted =>
    .type ("receiver must be " ++ Text.joinStrings " or " (wanted.map Kind.name))
  | noText kind => .type s!"to_str() unsupported for {kind.name}"
  | emptySeparator => .failed "split(): empty separator"
  | indexOutOfRange index => .failed s!"index {Decimal.intText index.toInt} out of range"
  | integerOverflow => .failed "abs(): integer overflow"

namespace Primitive

/-- The methods by the kind of their receiver and their name. -/
def surface : List ((Kind × String) × Primitive) :=
  [((.str, "len"), textLength), ((.str, "upper"), textUpper), ((.str, "lower"), textLower),
   ((.str, "strip"), textTrim), ((.str, "split"), textSplit),
   ((.str, "startswith"), textStartsWith), ((.str, "endswith"), textEndsWith),
   ((.str, "replace"), textReplace), ((.str, "contains"), textContains),
   ((.bytes, "len"), bytesLength),
   ((.list, "len"), itemsLength), ((.list, "get"), itemsGet), ((.list, "contains"), itemsContain),
   ((.list, "append"), itemsAppend), ((.list, "reverse"), itemsReverse),
   ((.tuple, "len"), itemsLength), ((.tuple, "get"), itemsGet),
   ((.map, "len"), entriesLength), ((.map, "get"), entriesGet), ((.map, "keys"), entriesKeys),
   ((.map, "contains"), entriesContain),
   ((.int, "abs"), integerAbs), ((.int, "to_str"), scalarText),
   ((.float, "abs"), floatingAbs), ((.float, "round"), floatingRound),
   ((.float, "to_str"), scalarText), ((.bool, "to_str"), scalarText)]

/-- The method of a kind with this name. -/
def lookup? (kind : Kind) (name : String) : Option Primitive :=
  (surface.find? fun e => e.1.1 == kind && e.1.2 == name).map (·.2)

/-- A count as an integer, at most the largest one. -/
def count (n : Nat) : Value :=
  .int (if n ≤ Int64.maxValue.toInt.toNat then Int64.ofNat n else Int64.maxValue)

/-- Refuses any other number of arguments than `expected`. -/
def expectArguments (method : String) (expected : Nat) (args : List Value) :
    Except Misuse Unit :=
  if args.length = expected then .ok () else .error (.argumentCount method expected args.length)

/-- The string argument at a position. -/
def textArgument (method : String) (args : List Value) (position : Nat) :
    Except Misuse String :=
  match args[position]?.bind Value.text? with
  | some s => .ok s
  | none => .error (.argumentKind method position .str)

/-- The integer argument at a position. -/
def integerArgument (method : String) (args : List Value) (position : Nat) :
    Except Misuse Int64 :=
  match args[position]?.bind Value.integer? with
  | some n => .ok n
  | none => .error (.argumentKind method position .int)

/-- The receiver as a string. -/
def textReceiver : Value → Except Misuse String
  | .str s => .ok s
  | _ => .error (.receiverKind [.str])

/-- The items of the receiver, a list or a tuple. -/
def itemsReceiver : Value → Except Misuse (List Value)
  | .list items => .ok items
  | .tuple items => .ok items
  | _ => .error (.receiverKind [.list, .tuple])

/-- The entries of the receiver, a map. -/
def entriesReceiver : Value → Except Misuse (List (String × Value))
  | .map entries => .ok entries
  | _ => .error (.receiverKind [.map])

/-- The receiver as bytes. -/
def bytesReceiver : Value → Except Misuse (List UInt8)
  | .bytes bs => .ok bs
  | _ => .error (.receiverKind [.bytes])

/-- The receiver as an integer. -/
def integerReceiver : Value → Except Misuse Int64
  | .int n => .ok n
  | _ => .error (.receiverKind [.int])

/-- The receiver as a floating-point number. -/
def floatingReceiver : Value → Except Misuse Binary64
  | .float x => .ok x
  | _ => .error (.receiverKind [.float])

/-- The text of a number or a truth value. -/
def scalarToText : Value → Except Misuse String
  | .int n => .ok (Decimal.intText n.toInt)
  | .float x => .ok (String.ofList (Decimal.plain.write x))
  | .bool b => .ok (if b then "true" else "false")
  | v => .error (.noText v.kind)

/-- A text as a string value. -/
def textValue (cs : List Char) : Value := .str (String.ofList cs)

/-- The pieces of a string: its words, or what lies between the occurrences of a separator. -/
def split (s : String) : List Value → Except Misuse Value
  | [] => .ok (.list ((Text.words s.toList).map textValue))
  | [arg] => do
    let sep ← textArgument "split" [arg] 0
    if sep.isEmpty then .error .emptySeparator
    else .ok (.list ((Text.pieces sep.toList s.toList).map textValue))
  | args => .error (.tooManyArguments args.length)

/-- The item at a position. -/
def item (items : List Value) (index : Int64) : Except Misuse Value :=
  if index < 0 then .error (.indexOutOfRange index)
  else
    match items[index.toInt.toNat]? with
    | some v => .ok v
    | none => .error (.indexOutOfRange index)

/-- The absolute value of an integer. -/
def absolute (n : Int64) : Except Misuse Value :=
  if n = Int64.minValue then .error .integerOverflow
  else .ok (.int (if n < 0 then -n else n))

/-- **`p.apply receiver args`** — the method on any receiver and any arguments. Which of two
faults is reported is part of each method: most look at the number of arguments first. -/
def apply (p : Primitive) (receiver : Value) (args : List Value) : Except Misuse Value :=
  match p with
  | textLength => do
    expectArguments "len" 0 args
    let s ← textReceiver receiver
    return count s.length
  | textUpper => do
    expectArguments "upper" 0 args
    let s ← textReceiver receiver
    return .str (Text.upper s)
  | textLower => do
    expectArguments "lower" 0 args
    let s ← textReceiver receiver
    return .str (Text.lower s)
  | textTrim => do
    expectArguments "strip" 0 args
    let s ← textReceiver receiver
    return .str (Text.trim s)
  | textSplit => do
    let s ← textReceiver receiver
    split s args
  | textStartsWith => do
    expectArguments "startswith" 1 args
    let start ← textArgument "startswith" args 0
    let s ← textReceiver receiver
    return .bool (start.toList.isPrefixOf s.toList)
  | textEndsWith => do
    expectArguments "endswith" 1 args
    let ending ← textArgument "endswith" args 0
    let s ← textReceiver receiver
    return .bool (ending.toList.isSuffixOf s.toList)
  | textReplace => do
    expectArguments "replace" 2 args
    let old ← textArgument "replace" args 0
    let new ← textArgument "replace" args 1
    let s ← textReceiver receiver
    return textValue (Text.replaceAll old.toList new.toList s.toList)
  | textContains => do
    expectArguments "contains" 1 args
    let needle ← textArgument "contains" args 0
    let s ← textReceiver receiver
    return .bool (Text.occursIn needle.toList s.toList)
  | bytesLength => do
    expectArguments "len" 0 args
    let bs ← bytesReceiver receiver
    return count bs.length
  | itemsLength => do
    expectArguments "len" 0 args
    let items ← itemsReceiver receiver
    return count items.length
  | itemsGet => do
    expectArguments "get" 1 args
    let items ← itemsReceiver receiver
    let index ← integerArgument "get" args 0
    item items index
  | itemsContain => do
    expectArguments "contains" 1 args
    let items ← itemsReceiver receiver
    return .bool (items.any fun v => args.any fun a => v.same a)
  | itemsAppend => do
    expectArguments "append" 1 args
    let items ← itemsReceiver receiver
    return .list (items ++ args)
  | itemsReverse => do
    expectArguments "reverse" 0 args
    let items ← itemsReceiver receiver
    return .list items.reverse
  | entriesLength => do
    expectArguments "len" 0 args
    let entries ← entriesReceiver receiver
    return count entries.length
  | entriesGet => do
    expectArguments "get" 1 args
    let key ← textArgument "get" args 0
    let entries ← entriesReceiver receiver
    return (findEntry key entries).getD .unit
  | entriesKeys => do
    expectArguments "keys" 0 args
    let entries ← entriesReceiver receiver
    return .list (entries.map fun e => .str e.1)
  | entriesContain => do
    expectArguments "contains" 1 args
    let key ← textArgument "contains" args 0
    let entries ← entriesReceiver receiver
    return .bool (findEntry key entries).isSome
  | integerAbs => do
    expectArguments "abs" 0 args
    let n ← integerReceiver receiver
    absolute n
  | floatingAbs => do
    expectArguments "abs" 0 args
    let x ← floatingReceiver receiver
    return .float x.abs
  | floatingRound => do
    expectArguments "round" 0 args
    let x ← floatingReceiver receiver
    return .float x.round
  | scalarText => do
    expectArguments "to_str" 0 args
    let s ← scalarToText receiver
    return .str s

/-- No method of the table has a name that starts with an underscore. -/
theorem surface_names : ∀ e ∈ surface, e.1.2.toList.head? ≠ some '_' := by decide

/-- Every kind with a method is a safe primitive kind. -/
theorem surface_kinds : ∀ e ∈ surface, e.1.1.isSafePrimitive = true := by decide

end Primitive

end CapabilityGate
