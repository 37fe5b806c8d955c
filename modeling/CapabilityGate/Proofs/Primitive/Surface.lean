import CapabilityGate.Proofs.Admission.Decision
import CapabilityGate.Proofs.Primitive.Methods

/-!
# The methods that every caller may use

A method of a value of a primitive kind is called through the gate. `Gate.Answers` says that a call
comes to its result at once and leaves no trace but in the journal of entries. If the table lists the
name for the kind of the receiver, the gate answers with what the method comes to
(`Gate.answers_of_listed`), and otherwise it refuses the call (`Gate.answers_of_unlisted`): no catalog
can register anything in between.

`vetted_surface_safe` adds how the methods end. They find every argument that they take, they fail for
flaws of the receiver and the arguments only, and whatever can be called in a value that they give
back stood in the receiver or an argument.
-/
namespace CapabilityGate

namespace Primitive

/-- A name is looked up in the table as a whole: each kind and name is listed once. -/
theorem lookup?_eq_some_iff {k : Kind} {n : String} {p : Primitive} :
    lookup? k n = some p ↔ ((k, n), p) ∈ surface := by
  constructor
  · intro found
    obtain ⟨row, first, rfl⟩ := Option.map_eq_some_iff.mp found
    obtain ⟨rfl, rfl⟩ : row.1.1 = k ∧ row.1.2 = n := by simpa using List.find?_some first
    exact List.mem_of_find?_eq_some first
  · have rows : ∀ row ∈ surface, lookup? row.1.1 row.1.2 = some row.2 := by decide
    exact fun listed => rows _ listed

theorem lookup?_eq_none_iff {k : Kind} {n : String} :
    lookup? k n = none ↔ ∀ p, ((k, n), p) ∉ surface := by
  rw [Option.eq_none_iff_forall_ne_some]
  exact forall_congr' fun p => not_congr lookup?_eq_some_iff

end Primitive

namespace Gate

/-- **`g.Answers run callee args m result`** — the call comes to the result at once. The thread is as it
was, nobody is left in the background, and of the world only the journal of entries has changed; so
the log of denials is the same. -/
def Answers (g : Gate) (run : Script → Activity Ending) (callee : Value) (args : List Value)
    (m : Machine) (result : Result) : Prop :=
  ∃ entries, g.checkedCall run callee args m =
    .ended ⟨.returned result, m.thread, none⟩ { m.world with entries }

variable {g : Gate} {run : Script → Activity Ending} {m : Machine} {receiver : Value}
  {args : List Value} {name : String}

/-- A call comes to one result. -/
theorem Answers.unique {callee : Value} {result result' : Result}
    (h : g.Answers run callee args m result) (h' : g.Answers run callee args m result') :
    result = result' := by
  obtain ⟨entries, course⟩ := h
  obtain ⟨entries', course'⟩ := h'
  rw [course] at course'
  injection course' with returned
  injection returned with ending
  injection ending

/-- Objects are of no primitive kind, so nothing is registered for a primitive value. -/
theorem listing?_of_safe {β : Type} (c : Catalog β) (safe : receiver.kind.isSafePrimitive = true) :
    c.listing? (.method receiver name) = none := by
  cases receiver with
  | object _ _ => cases safe
  | _ => rfl

theorem answers_of_listed {p : Primitive} (live : m.world.isExhausted g.budget = false)
    (room : m.thread.depth < maxDepth) (listed : ((receiver.kind, name), p) ∈ Primitive.surface) :
    g.Answers run (.method receiver name) args m
      ((p.apply receiver args).mapError Misuse.fault) := by
  have safe : receiver.kind.isSafePrimitive = true := Primitive.surface_kinds _ listed
  have meant : Catalog.primitive? (.method receiver name) = some (p, receiver) := by
    simp [Catalog.primitive?, Catalog.primitiveOf?, safe, Primitive.lookup?_eq_some_iff.mpr listed]
  rw [Answers, checkedCall_eq_decision g run _ args m live room,
    Catalog.decision_of_unlisted rfl (listing?_of_safe g.catalog safe), meant]
  exact ⟨_, rfl⟩

theorem answers_value {k : Kind} {p : Primitive} {v : Value}
    (live : m.world.isExhausted g.budget = false) (room : m.thread.depth < maxDepth)
    (listed : ((k, name), p) ∈ Primitive.surface) (of : receiver.kind = k)
    (comes : p.apply receiver args = .ok v) :
    g.Answers run (.method receiver name) args m (.ok v) := by
  subst of
  have answers : g.Answers run (.method receiver name) args m
      ((p.apply receiver args).mapError Misuse.fault) := answers_of_listed live room listed
  rwa [comes] at answers

theorem answers_of_unlisted (live : m.world.isExhausted g.budget = false)
    (room : m.thread.depth < maxDepth) (safe : receiver.kind.isSafePrimitive = true)
    (unlisted : ∀ p, ((receiver.kind, name), p) ∉ Primitive.surface) :
    g.Answers run (.method receiver name) args m
      (.error (.security s!"{receiver.kind.name}.{name}" s!"builtin type '{receiver.kind.name}'"
        g.catalog.callSources)) := by
  have meant : Catalog.primitive? (.method receiver name) = none := by
    simp [Catalog.primitive?, Catalog.primitiveOf?, safe, Primitive.lookup?_eq_none_iff.mpr unlisted]
  have named : Value.symbol (.method receiver name) = s!"{receiver.kind.name}.{name}" ∧
      g.catalog.originOf (.method receiver name) = s!"builtin type '{receiver.kind.name}'" := by
    cases receiver with
    | object _ _ => cases safe
    | _ => exact ⟨rfl, rfl⟩
  rw [Answers, checkedCall_eq_decision g run _ args m live room,
    Catalog.decision_of_unlisted rfl (listing?_of_safe g.catalog safe), meant, ← named.1, ← named.2]
  exact ⟨m.world.entries, rfl⟩

end Gate

/-- **The methods of the primitive kinds are safe for every caller**, whatever the receiver of such a
kind, the name and the arguments. A name that is not listed for the kind is refused. A listed method
finds each argument that it takes by position; it fails only for a flaw of the receiver and the
arguments, which is never the kind of the receiver; and all that can be called in the value it gives
back stands in the receiver or in an argument. In each case nothing is logged. -/
theorem vetted_surface_safe (g : Gate) (run : Script → Activity Ending) (m : Machine)
    (receiver : Value) (name : String) (args : List Value)
    (live : m.world.isExhausted g.budget = false) (room : m.thread.depth < maxDepth)
    (safe : receiver.kind.isSafePrimitive = true) :
    ((∀ p, ((receiver.kind, name), p) ∉ Primitive.surface) ∧
      g.Answers run (.method receiver name) args m
        (.error (.security s!"{receiver.kind.name}.{name}" s!"builtin type '{receiver.kind.name}'"
          g.catalog.callSources))) ∨
    ∃ p, ((receiver.kind, name), p) ∈ Primitive.surface ∧
      p.attempt receiver args = some <$> p.apply receiver args ∧
      ((∃ v, g.Answers run (.method receiver name) args m (.ok v) ∧
          v.MadeFrom (receiver :: args)) ∨
        ∃ e, g.Answers run (.method receiver name) args m (.error e.fault) ∧
          p.Flaw receiver args e) := by
  by_cases listed : ∃ p, ((receiver.kind, name), p) ∈ Primitive.surface
  · right
    obtain ⟨p, listed⟩ := listed
    refine ⟨p, listed, p.attempt_eq receiver args, ?_⟩
    have answers : g.Answers run (.method receiver name) args m
        ((p.apply receiver args).mapError Misuse.fault) :=
      Gate.answers_of_listed live room listed
    have ends : Ends (p.apply receiver args) (·.MadeFrom (receiver :: args))
        (p.Flaw receiver args) :=
      p.ends_apply (Primitive.of_mem_surface listed).2
    cases h : p.apply receiver args with
    | ok v =>
      rw [h] at answers ends
      exact .inl ⟨v, answers, ends⟩
    | error e =>
      rw [h] at answers ends
      exact .inr ⟨e, answers, ends⟩
  · left
    have unlisted := not_exists.mp listed
    exact ⟨unlisted, Gate.answers_of_unlisted live room safe unlisted⟩

/-- A gate without a budget, over a catalog without entries. -/
def emptyGate : Gate := ⟨.empty "main", none⟩

/-- How it evaluates the bodies that it enters. -/
def emptyGate.run (script : Script) : Activity Ending := script.evaluate calls launches emptyGate

/-- The functions in a list that is given back were in the list before, or given as an argument. -/
theorem vetted_surface_safe_callbacks :
    Machine.initial.world.isExhausted emptyGate.budget = false ∧
    Machine.initial.thread.depth < maxDepth ∧
    (Value.list [.function "net.get"]).kind.isSafePrimitive = true ∧
    emptyGate.Answers emptyGate.run (.method (.list [.function "net.get"]) "append")
      [.function "fs.read"] .initial (.ok (.list [.function "net.get", .function "fs.read"])) ∧
    (Value.list [.function "net.get", .function "fs.read"]).MadeFrom
      [.list [.function "net.get"], .function "fs.read"] := by
  have live : Machine.initial.world.isExhausted emptyGate.budget = false := rfl
  have room : Machine.initial.thread.depth < maxDepth := by decide
  have safe : (Value.list [.function "net.get"]).kind.isSafePrimitive = true := rfl
  have appended : emptyGate.Answers emptyGate.run (.method (.list [.function "net.get"]) "append")
      [.function "fs.read"] .initial (.ok (.list [.function "net.get", .function "fs.read"])) :=
    Gate.answers_value (k := .list) (p := .itemsAppend) live room (by decide) rfl rfl
  refine ⟨live, room, safe, appended, ?_⟩
  rcases vetted_surface_safe emptyGate emptyGate.run .initial _ "append" [.function "fs.read"] live
    room safe with ⟨-, refused⟩ | ⟨_, -, -, ⟨v, answered, made⟩ | ⟨e, answered, -⟩⟩
  · cases refused.unique appended
  · cases answered.unique appended
    exact made
  · cases answered.unique appended

end CapabilityGate
