import CapabilityGate.Gate.Script

/-!
# Expressions for bodies

A small language in which the bodies of a scenario are written. An expression is evaluated from left
to right and ends at its first fault. `Expr.compile` turns one into a script, given what comes after
it: the rest of the script for every result that it may have. A context is meant by its name, which
is looked up when the evaluation gets there.
-/
namespace CapabilityGate

/-- An expression. -/
inductive Expr where
  /-- A value. -/
  | const (v : Value)
  /-- An argument of the body; unit if there is none at this position. -/
  | arg (n : Nat)
  /-- The number of arguments. -/
  | argCount
  /-- All arguments as a list. -/
  | argList
  /-- The receiver of a method; unit in a function. -/
  | self
  /-- A field of the receiver. -/
  | field (key : String)
  | list (items : List Expr)
  | tuple (items : List Expr)
  /-- All in order; the value of the last one. -/
  | seq (items : List Expr)
  /-- A call of a symbol. -/
  | call (symbol : String) (args : List Expr)
  /-- A call of a value. -/
  | callValue (callee : Expr) (args : List Expr)
  /-- A method of a value, not yet called. -/
  | method (receiver : Expr) (name : String)
  /-- A call of a method of a value. -/
  | invoke (receiver : Expr) (name : String) (args : List Expr)
  /-- The token that covers a resource. -/
  | require (capability : Capability) (resource : Expr) (operation : String)
  /-- A fault. -/
  | fail (f : Fault)
  | panic (message : Option String)
  /-- Whether an expression has a value, with the value or the text of the fault. -/
  | attempt (e : Expr)
  /-- An expression with another context active. -/
  | within (context : String) (e : Expr)
  /-- The name of the active context. -/
  | contextName
  /-- The capabilities that the active context holds. -/
  | contextTypes (ancestors : Bool)
  /-- Calls a symbol with the first argument less one, until that is no longer positive. -/
  | countdown (symbol : String) (e : Expr)
  | revoke (name : String)
  | cancel
  /-- Hands the result of an expression to the host. -/
  | report (e : Expr)
  /-- The value of an expression inside lists of one element. -/
  | nest (n : Nat) (e : Expr)
  /-- Runs an expression in a sandbox. -/
  | run (context : String) (config : Config) (e : Expr)
  | sleep (time : Duration)
  /-- Raises a signal in the process. -/
  | signal (number : Int)
  /-- Ends the process. -/
  | exit (status : Nat)
  /-- Asks for memory; the value is the number of bytes. -/
  | allocate (mib : Nat)

/-- What a body was called with. -/
structure Expr.Frame where
  receiver : Value
  args : List Value

namespace Expr

/-- The frame of an expression outside of every call. -/
def Frame.outside : Frame := ⟨.unit, []⟩

/-- The fault of a name that no shared context has. -/
def unknownContext (name : String) : Fault := .failed s!"unknown context '{name}'"

/-- The value that stands for a token: its capability and the patterns it is restricted to. -/
def tokenValue (t : Token) : Value :=
  .tuple [.str t.capability.name,
    match t.scope with
    | none => .unit
    | some s => .list (s.patterns.map fun p => .str p.text)]

/-- The value that stands for an outcome. -/
def outcomeValue (o : Outcome) : Value :=
  .tuple [.bool o.success,
    match o.value, o.failure with
    | some v, _ => v
    | none, some f => .str f.display
    | none, none => .unit]

/-- The value that stands for a result that was caught. -/
def caught : Result → Value
  | .ok v => .tuple [.bool true, v]
  | .error f => .tuple [.bool false, .str f.message]

/-- A count of bytes as a value. -/
def countValue (n : Nat) : Value := .int (Int64.ofNat n)

mutual

/-- **`e.compile frame next`** — the script of an expression, followed by `next`. -/
def compile (frame : Frame) : Expr → (Result → Script) → Script
  | const v, next => next (.ok v)
  | arg n, next => next (.ok (frame.args[n]?.getD .unit))
  | argCount, next => next (.ok (countValue frame.args.length))
  | argList, next => next (.ok (.list frame.args))
  | self, next => next (.ok frame.receiver)
  | field key, next => next (.ok (frame.receiver.field key))
  | list items, next => compileAll frame items fun r => next (r.map .list)
  | tuple items, next => compileAll frame items fun r => next (r.map .tuple)
  | seq items, next =>
    compileAll frame items fun r => next (r.map fun vs => vs.getLast?.getD .unit)
  | call symbol args, next =>
    compileAll frame args fun
      | .ok vs => .call (.function symbol) vs next
      | .error f => next (.error f)
  | callValue callee args, next =>
    compile frame callee fun
      | .ok v =>
        compileAll frame args fun
          | .ok vs => .call v vs next
          | .error f => next (.error f)
      | .error f => next (.error f)
  | method receiver name, next =>
    compile frame receiver fun r => next (r.map fun v => .method v name)
  | invoke receiver name args, next =>
    compile frame receiver fun
      | .ok v =>
        compileAll frame args fun
          | .ok vs => .call (.method v name) vs next
          | .error f => next (.error f)
      | .error f => next (.error f)
  | require capability resource operation, next =>
    compile frame resource fun
      | .ok (.str s) =>
        .require capability s operation fun answer => next (answer.map tokenValue)
      | .ok _ => next (.error (.type "resource must be str"))
      | .error f => next (.error f)
  | fail f, next => next (.error f)
  | panic message, _ => .panic message
  | attempt e, next => compile frame e fun r => next (.ok (caught r))
  | within context e, next =>
    .find context fun
      | some id => .within id (compile frame e .finish) next
      | none => next (.error (unknownContext context))
  | contextName, next =>
    .current fun lineage => next (.ok (match lineage.bind List.head? with
      | some x => .str x.name
      | none => .unit))
  | contextTypes ancestors, next =>
    .current fun lineage => next (.ok (match lineage with
      | some l => .list ((l.types ancestors).map fun c => .str c.name)
      | none => .unit))
  | countdown symbol e, next =>
    match frame.args.head? with
    | some (.int n) =>
      if 0 < n then .call (.function symbol) [.int (n - 1)] next else compile frame e next
    | _ => compile frame e next
  | revoke name, next => .revoke (.named name) (next (.ok .unit))
  | cancel, next => .cancel (next (.ok .unit))
  | report e, next => compile frame e fun r => .report r (next (.ok .unit))
  | nest n e, next => compile frame e fun r => next (r.map (Value.nest n))
  | run context config e, next =>
    .find context fun
      | some id =>
        .launch id config (compile .outside e .finish) fun o => next (.ok (outcomeValue o))
      | none => next (.error (unknownContext context))
  | sleep time, next => .sleep time (next (.ok .unit))
  | signal number, next => .raise number (next (.ok .unit))
  | exit status, _ => .exit status
  | allocate mib, next =>
    .allocate (mib * ByteSize.mib) (next (.ok (countValue (mib * ByteSize.mib))))

/-- The script of expressions in order, followed by `next` for their values. -/
def compileAll (frame : Frame) : List Expr → (Except Fault (List Value) → Script) → Script
  | [], next => next (.ok [])
  | e :: es, next =>
    compile frame e fun
      | .ok v => compileAll frame es fun r => next (r.map (v :: ·))
      | .error f => next (.error f)

end

/-- The body of a function or method that an expression describes. -/
def body (e : Expr) : Body := fun receiver args => e.compile ⟨receiver, args⟩ .finish

/-- The script of an expression outside of every call. -/
def script (e : Expr) : Script := e.compile .outside .finish

end Expr

end CapabilityGate
