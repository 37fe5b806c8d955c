import CapabilityGate.Value.Primitive

/-!
# What the methods of the primitive kinds do

A method is applied to a receiver of a kind that it is listed for, and to any arguments. Then there
are two ways to end. `Primitive.Flaw` lists the causes of a failure: the number and the kinds of the
arguments, and three conditions on values. A receiver of the wrong kind is none of them. A value that
comes out is put together from what the receiver and the arguments hold (`Value.MadeFrom`): whatever
can be called in it stood in one of them before.

`Ends` says both of a computation that may fail, and `Ends.bind` takes it through a sequence of steps.
Each step of a method has one lemma; `Primitive.ends_apply` chains them for every method of the table.
-/
namespace CapabilityGate

/-! ## What stands in a value -/

namespace Value

/-- **`w.Occurs v`** — the value `w` stands anywhere inside `v`, or is `v` itself. -/
inductive Occurs (w : Value) : Value → Prop
  | here : Occurs w w
  | list {items : List Value} {v : Value} (member : v ∈ items) (inside : Occurs w v) :
      Occurs w (.list items)
  | tuple {items : List Value} {v : Value} (member : v ∈ items) (inside : Occurs w v) :
      Occurs w (.tuple items)
  | map {entries : List (String × Value)} {key : String} {v : Value} (member : (key, v) ∈ entries)
      (inside : Occurs w v) : Occurs w (.map entries)
  | object {className : String} {fields : List (String × Value)} {key : String} {v : Value}
      (member : (key, v) ∈ fields) (inside : Occurs w v) : Occurs w (.object className fields)
  | method {receiver : Value} {name : String} (inside : Occurs w receiver) :
      Occurs w (.method receiver name)

/-- **`v.MadeFrom given`** — everything in `v` that can be called stands in a given value. -/
def MadeFrom (v : Value) (given : List Value) : Prop :=
  ∀ w : Value, w.isCallable = true → w.Occurs v → ∃ a ∈ given, w.Occurs a

/-- A value that holds no other values and cannot be called. -/
def isPlain : Value → Bool
  | unit => true
  | bool _ => true
  | int _ => true
  | float _ => true
  | str _ => true
  | bytes _ => true
  | _ => false

variable {given items : List Value} {v a : Value}

theorem Occurs.trans {w : Value} (inner : w.Occurs v) (outer : v.Occurs a) : w.Occurs a := by
  induction outer with
  | here => exact inner
  | list member _ ih => exact .list member ih
  | tuple member _ ih => exact .tuple member ih
  | map member _ ih => exact .map member ih
  | object member _ ih => exact .object member ih
  | method _ ih => exact .method ih

theorem madeFrom_of_plain (plain : v.isPlain = true) : v.MadeFrom given := by
  intro w callable inside
  cases inside with
  | here => cases v <;> simp [isPlain, isCallable] at plain callable
  | list _ _ | tuple _ _ | map _ _ | object _ _ | method _ => cases plain

theorem madeFrom_of_occurs (member : a ∈ given) (part : v.Occurs a) : v.MadeFrom given := by
  intro w _ inside
  exact ⟨a, member, inside.trans part⟩

theorem madeFrom_list (made : ∀ v ∈ items, v.MadeFrom given) : (list items).MadeFrom given := by
  intro w callable inside
  cases inside with
  | here => cases callable
  | list member inside => exact made _ member w callable inside

end Value

/-! ## Computations that may fail -/

section Ends

variable {α β : Type} {x : Except Misuse α} {f : α → Except Misuse β} {mid : α → Prop}
  {good : β → Prop} {bad : Misuse → Prop}

/-- **`Ends x good bad`** — the computation comes to a result that is `good`, or to a misuse that is
`bad`. -/
def Ends (x : Except Misuse α) (good : α → Prop) (bad : Misuse → Prop) : Prop :=
  match x with
  | .ok a => good a
  | .error e => bad e

/-- What the first step comes to is what the second one starts from. -/
theorem Ends.bind (first : Ends x mid bad) (next : ∀ a, mid a → Ends (f a) good bad) :
    Ends (x >>= f) good bad := by
  cases x with
  | ok a => exact next a first
  | error e => exact first

theorem Ends.mono {weak : α → Prop} (h : Ends x mid bad) (weaker : ∀ a, mid a → weak a) :
    Ends x weak bad := by
  cases x with
  | ok a => exact weaker a h
  | error e => exact h

end Ends

namespace Primitive

/-! ## What a method asks for -/

/-- The name of a method in its messages, which is the name that it is listed under. -/
def name : Primitive → String
  | textLength | bytesLength | itemsLength | entriesLength => "len"
  | textUpper => "upper"
  | textLower => "lower"
  | textTrim => "strip"
  | textSplit => "split"
  | textStartsWith => "startswith"
  | textEndsWith => "endswith"
  | textReplace => "replace"
  | textContains | itemsContain | entriesContain => "contains"
  | itemsGet | entriesGet => "get"
  | itemsAppend => "append"
  | itemsReverse => "reverse"
  | entriesKeys => "keys"
  | integerAbs | floatingAbs => "abs"
  | floatingRound => "round"
  | scalarText => "to_str"

/-- The kinds of receivers of a method. -/
def receivers : Primitive → List Kind
  | textLength | textUpper | textLower | textTrim | textSplit | textStartsWith | textEndsWith
  | textReplace | textContains => [.str]
  | bytesLength => [.bytes]
  | itemsLength | itemsGet => [.list, .tuple]
  | itemsContain | itemsAppend | itemsReverse => [.list]
  | entriesLength | entriesGet | entriesKeys | entriesContain => [.map]
  | integerAbs => [.int]
  | floatingAbs | floatingRound => [.float]
  | scalarText => [.int, .float, .bool]

/-- The kinds of the arguments of a method, where it asks for one. The argument of `split` may be
missing. -/
def parameters : Primitive → List (Option Kind)
  | textSplit | textStartsWith | textEndsWith | textContains | entriesGet | entriesContain =>
    [some .str]
  | textReplace => [some .str, some .str]
  | itemsGet => [some .int]
  | itemsContain | itemsAppend => [none]
  | _ => []

/-- The table lists each method under its name, for the kinds of its receivers. -/
theorem of_mem_surface {k : Kind} {n : String} {p : Primitive} (listed : ((k, n), p) ∈ surface) :
    n = p.name ∧ k ∈ p.receivers := by
  have rows : ∀ row ∈ surface, row.1.2 = row.2.name ∧ row.1.1 ∈ row.2.receivers := by decide
  exact rows _ listed

/-- **`p.Flaw receiver args e`** — the misuse `e` is what is wrong with these arguments, or with this
receiver, which is of a kind that the method is listed for. -/
inductive Flaw (p : Primitive) (receiver : Value) (args : List Value) : Misuse → Prop
  /-- There are more or fewer arguments than the method takes. -/
  | count (fixed : p ≠ .textSplit) (other : args.length ≠ p.parameters.length) :
      Flaw p receiver args (.argumentCount p.name p.parameters.length args.length)
  /-- There are more arguments than the one that `split` may have. -/
  | many (split : p = .textSplit) (more : 1 < args.length) :
      Flaw p receiver args (.tooManyArguments args.length)
  /-- An argument is of another kind than the method asks for. -/
  | kind {i : Nat} {wanted : Kind} {a : Value} (asked : p.parameters[i]? = some (some wanted))
      (given : args[i]? = some a) (other : a.kind ≠ wanted) :
      Flaw p receiver args (.argumentKind p.name i wanted)
  /-- The separator is empty. -/
  | separator (split : p = .textSplit) (empty : args = [.str ""]) :
      Flaw p receiver args .emptySeparator
  /-- There is no item at the position. -/
  | index {items : List Value} {i : Int64} (get : p = .itemsGet)
      (these : receiver = .list items ∨ receiver = .tuple items) (given : args = [.int i])
      (outside : i.toInt < 0 ∨ items.length ≤ i.toInt) :
      Flaw p receiver args (.indexOutOfRange i)
  /-- The receiver is the smallest integer. -/
  | overflow (abs : p = .integerAbs) (smallest : receiver = .int Int64.minValue) :
      Flaw p receiver args .integerOverflow

variable {p : Primitive} {receiver : Value} {args : List Value} {i : Nat}

/-! ## The steps of a method -/

theorem eq_singleton {a : Value} (counted : args.length = 1) (given : args[0]? = some a) :
    args = [a] := by
  obtain ⟨b, rfl⟩ := List.length_eq_one_iff.mp counted
  cases given
  rfl

theorem ends_expectArguments {n : String} {number : Nat} (fixed : p ≠ .textSplit)
    (asks : (n, number) = (p.name, p.parameters.length)) :
    Ends (expectArguments n number args) (fun _ => args.length = number)
      (p.Flaw receiver args) := by
  cases asks
  unfold expectArguments
  split
  · assumption
  · rename_i other
    exact .count fixed other

theorem ends_textArgument {n : String}
    (asks : (n, p.parameters[i]?) = (p.name, some (some .str))) (there : i < args.length) :
    Ends (textArgument n args i) (fun s => args[i]? = some (.str s)) (p.Flaw receiver args) := by
  obtain ⟨rfl, asked⟩ := Prod.mk.inj asks
  have given := List.getElem?_eq_getElem there
  unfold textArgument
  rw [given, Option.bind_some]
  cases h : args[i] with
  | str s => rfl
  | _ => exact .kind asked (given.trans (congrArg some h)) nofun

theorem ends_integerArgument {n : String}
    (asks : (n, p.parameters[i]?) = (p.name, some (some .int))) (there : i < args.length) :
    Ends (integerArgument n args i) (fun n => args[i]? = some (.int n))
      (p.Flaw receiver args) := by
  obtain ⟨rfl, asked⟩ := Prod.mk.inj asks
  have given := List.getElem?_eq_getElem there
  unfold integerArgument
  rw [given, Option.bind_some]
  cases h : args[i] with
  | int n => rfl
  | _ => exact .kind asked (given.trans (congrArg some h)) nofun

section Receivers

variable {bad : Misuse → Prop}

theorem ends_textReceiver (of : receiver.kind ∈ [Kind.str]) :
    Ends (textReceiver receiver) (fun s => receiver = .str s) bad := by
  cases receiver with
  | str s => rfl
  | _ => simp [Value.kind] at of

theorem ends_bytesReceiver (of : receiver.kind ∈ [Kind.bytes]) :
    Ends (bytesReceiver receiver) (fun bs => receiver = .bytes bs) bad := by
  cases receiver with
  | bytes bs => rfl
  | _ => simp [Value.kind] at of

theorem list_or_tuple (of : receiver.kind ∈ [Kind.list]) :
    receiver.kind ∈ [Kind.list, Kind.tuple] := by
  rw [List.mem_singleton.mp of]
  decide

theorem ends_itemsReceiver (of : receiver.kind ∈ [Kind.list, Kind.tuple]) :
    Ends (itemsReceiver receiver) (fun items => receiver = .list items ∨ receiver = .tuple items)
      bad := by
  cases receiver with
  | list items => exact .inl rfl
  | tuple items => exact .inr rfl
  | _ => simp [Value.kind] at of

theorem ends_entriesReceiver (of : receiver.kind ∈ [Kind.map]) :
    Ends (entriesReceiver receiver) (fun entries => receiver = .map entries) bad := by
  cases receiver with
  | map entries => rfl
  | _ => simp [Value.kind] at of

theorem ends_integerReceiver (of : receiver.kind ∈ [Kind.int]) :
    Ends (integerReceiver receiver) (fun n => receiver = .int n) bad := by
  cases receiver with
  | int n => rfl
  | _ => simp [Value.kind] at of

theorem ends_floatingReceiver (of : receiver.kind ∈ [Kind.float]) :
    Ends (floatingReceiver receiver) (fun x => receiver = .float x) bad := by
  cases receiver with
  | float x => rfl
  | _ => simp [Value.kind] at of

theorem ends_scalarToText (of : receiver.kind ∈ [Kind.int, Kind.float, Kind.bool]) :
    Ends (scalarToText receiver) (fun _ => True) bad := by
  cases receiver with
  | int n => trivial
  | float x => trivial
  | bool b => trivial
  | _ => simp [Value.kind] at of

end Receivers

/-! ## The values that methods make -/

section Values

variable {items given : List Value} {v : Value}

/-- The items of a receiver stand in it. -/
theorem madeFrom_of_item (these : receiver = .list items ∨ receiver = .tuple items)
    (member : v ∈ items) : v.MadeFrom (receiver :: args) := by
  refine Value.madeFrom_of_occurs List.mem_cons_self ?_
  rcases these with rfl | rfl
  · exact .list member .here
  · exact .tuple member .here

theorem mem_of_findEntry {α : Type} {key : String} {entries : List (String × α)} {a : α}
    (found : findEntry key entries = some a) : (key, a) ∈ entries := by
  induction entries with
  | nil => cases found
  | cons e entries ih =>
    rw [findEntry] at found
    split at found
    · rename_i same
      cases found
      exact same ▸ List.mem_cons_self
    · exact List.mem_cons_of_mem e (ih found)

/-- What is found in a map stands in it, and where nothing is found the answer is unit. -/
theorem madeFrom_findEntry {key : String} {entries : List (String × Value)}
    (of : receiver = .map entries) :
    ((findEntry key entries).getD .unit).MadeFrom (receiver :: args) := by
  subst of
  cases found : findEntry key entries with
  | none => exact Value.madeFrom_of_plain rfl
  | some v =>
    exact Value.madeFrom_of_occurs List.mem_cons_self (.map (mem_of_findEntry found) .here)

/-- A list of texts holds nothing that can be called. -/
theorem madeFrom_texts {α : Type} {text : α → Value} (plain : ∀ a, (text a).isPlain = true)
    (as : List α) : (Value.list (as.map text)).MadeFrom given := by
  refine Value.madeFrom_list fun v member => ?_
  obtain ⟨a, _, rfl⟩ := List.mem_map.mp member
  exact Value.madeFrom_of_plain (plain a)

theorem ends_split (s : String) :
    Ends (split s args) (·.MadeFrom (receiver :: args)) (textSplit.Flaw receiver args) := by
  match args with
  | [] => exact madeFrom_texts (fun _ => rfl) _
  | [arg] =>
    refine Ends.bind (ends_textArgument (by rfl) Nat.zero_lt_one) fun sep given => ?_
    split
    · rename_i empty
      obtain rfl : sep = "" := by simpa using empty
      exact .separator rfl (by simpa using given)
    · exact madeFrom_texts (fun _ => rfl) _
  | _ :: _ :: args =>
    refine .many rfl ?_
    simp only [List.length_cons]
    omega

theorem ends_item {i : Int64} (these : receiver = .list items ∨ receiver = .tuple items)
    (given : args = [.int i]) :
    Ends (item items i) (· ∈ items) (itemsGet.Flaw receiver args) := by
  unfold item
  split
  · rename_i negative
    have below : i.toInt < 0 := by simpa using Int64.lt_iff_toInt_lt.mp negative
    exact .index rfl these given (.inl below)
  · rename_i notNegative
    have zero : 0 ≤ i.toInt := by simpa using mt Int64.lt_iff_toInt_lt.mpr notNegative
    split
    · rename_i found
      exact List.mem_of_getElem? found
    · rename_i absent
      have above := List.getElem?_eq_none_iff.mp absent
      refine .index rfl these given (.inr ?_)
      omega

theorem ends_absolute {n : Int64} (of : receiver = .int n) :
    Ends (absolute n) (·.MadeFrom given) (integerAbs.Flaw receiver args) := by
  unfold absolute
  split
  · rename_i smallest
    exact .overflow rfl (smallest ▸ of)
  · exact Value.madeFrom_of_plain rfl

end Values

/-- **How a method ends**, on a receiver of a kind that it is for: with a value made from the receiver
and the arguments, or with a flaw of theirs. -/
theorem ends_apply (of : receiver.kind ∈ p.receivers) :
    Ends (p.apply receiver args) (·.MadeFrom (receiver :: args)) (p.Flaw receiver args) := by
  -- Along the steps of each method. The count comes first, so an argument is there when it is taken.
  cases p with
  | textLength | textUpper | textLower | textTrim =>
    refine Ends.bind (ends_expectArguments (by decide) (by rfl)) fun _ _ => ?_
    exact Ends.bind (ends_textReceiver of) fun _ _ => Value.madeFrom_of_plain rfl
  | textSplit =>
    exact Ends.bind (ends_textReceiver of) fun s _ => ends_split s
  | textStartsWith | textEndsWith | textContains =>
    refine Ends.bind (ends_expectArguments (by decide) (by rfl)) fun _ counted => ?_
    refine Ends.bind (ends_textArgument (by rfl) (counted ▸ Nat.zero_lt_one)) fun _ _ => ?_
    exact Ends.bind (ends_textReceiver of) fun _ _ => Value.madeFrom_of_plain rfl
  | textReplace =>
    refine Ends.bind (ends_expectArguments (by decide) (by rfl)) fun _ counted => ?_
    refine Ends.bind (ends_textArgument (by rfl) (counted ▸ Nat.zero_lt_two)) fun _ _ => ?_
    refine Ends.bind (ends_textArgument (by rfl) (counted ▸ Nat.one_lt_two)) fun _ _ => ?_
    exact Ends.bind (ends_textReceiver of) fun _ _ => Value.madeFrom_of_plain rfl
  | bytesLength =>
    refine Ends.bind (ends_expectArguments (by decide) (by rfl)) fun _ _ => ?_
    exact Ends.bind (ends_bytesReceiver of) fun _ _ => Value.madeFrom_of_plain rfl
  | itemsLength =>
    refine Ends.bind (ends_expectArguments (by decide) (by rfl)) fun _ _ => ?_
    exact Ends.bind (ends_itemsReceiver of) fun _ _ => Value.madeFrom_of_plain rfl
  | itemsGet =>
    refine Ends.bind (ends_expectArguments (by decide) (by rfl)) fun _ counted => ?_
    refine Ends.bind (ends_itemsReceiver of) fun items these => ?_
    refine Ends.bind (ends_integerArgument (by rfl) (counted ▸ Nat.zero_lt_one)) fun i given => ?_
    exact (ends_item these (eq_singleton counted given)).mono fun v member =>
      madeFrom_of_item these member
  | itemsContain =>
    refine Ends.bind (ends_expectArguments (by decide) (by rfl)) fun _ _ => ?_
    exact Ends.bind (ends_itemsReceiver (list_or_tuple of)) fun _ _ => Value.madeFrom_of_plain rfl
  | itemsAppend =>
    refine Ends.bind (ends_expectArguments (by decide) (by rfl)) fun _ _ => ?_
    refine Ends.bind (ends_itemsReceiver (list_or_tuple of)) fun items these => ?_
    refine Value.madeFrom_list fun v member => ?_
    rcases List.mem_append.mp member with old | new
    · exact madeFrom_of_item these old
    · exact Value.madeFrom_of_occurs (List.mem_cons_of_mem receiver new) .here
  | itemsReverse =>
    refine Ends.bind (ends_expectArguments (by decide) (by rfl)) fun _ _ => ?_
    refine Ends.bind (ends_itemsReceiver (list_or_tuple of)) fun items these => ?_
    exact Value.madeFrom_list fun v member => madeFrom_of_item these (List.mem_reverse.mp member)
  | entriesLength =>
    refine Ends.bind (ends_expectArguments (by decide) (by rfl)) fun _ _ => ?_
    exact Ends.bind (ends_entriesReceiver of) fun _ _ => Value.madeFrom_of_plain rfl
  | entriesGet =>
    refine Ends.bind (ends_expectArguments (by decide) (by rfl)) fun _ counted => ?_
    refine Ends.bind (ends_textArgument (by rfl) (counted ▸ Nat.zero_lt_one)) fun _ _ => ?_
    exact Ends.bind (ends_entriesReceiver of) fun _ these => madeFrom_findEntry these
  | entriesKeys =>
    refine Ends.bind (ends_expectArguments (by decide) (by rfl)) fun _ _ => ?_
    exact Ends.bind (ends_entriesReceiver of) fun entries _ => madeFrom_texts (fun _ => rfl) entries
  | entriesContain =>
    refine Ends.bind (ends_expectArguments (by decide) (by rfl)) fun _ counted => ?_
    refine Ends.bind (ends_textArgument (by rfl) (counted ▸ Nat.zero_lt_one)) fun _ _ => ?_
    exact Ends.bind (ends_entriesReceiver of) fun _ _ => Value.madeFrom_of_plain rfl
  | integerAbs =>
    refine Ends.bind (ends_expectArguments (by decide) (by rfl)) fun _ _ => ?_
    exact Ends.bind (ends_integerReceiver of) fun _ this => ends_absolute this
  | floatingAbs | floatingRound =>
    refine Ends.bind (ends_expectArguments (by decide) (by rfl)) fun _ _ => ?_
    exact Ends.bind (ends_floatingReceiver of) fun _ _ => Value.madeFrom_of_plain rfl
  | scalarText =>
    refine Ends.bind (ends_expectArguments (by decide) (by rfl)) fun _ _ => ?_
    exact Ends.bind (ends_scalarToText of) fun _ _ => Value.madeFrom_of_plain rfl

/-! ## Arguments taken by their position -/

/-- **`p.attempt receiver args`** — the method, with its argument taken by the position alone where it
may be any value. Nobody looks whether an argument is there; if it is not, nothing comes out. -/
def attempt (p : Primitive) (receiver : Value) (args : List Value) :
    Except Misuse (Option Value) :=
  match p with
  | itemsContain => do
    expectArguments "contains" 1 args
    let items ← itemsReceiver receiver
    return args[0]?.map fun a => .bool (items.any fun v => v.same a)
  | itemsAppend => do
    expectArguments "append" 1 args
    let items ← itemsReceiver receiver
    return args[0]?.map fun a => .list (items ++ [a])
  | p => some <$> p.apply receiver args

/-- Behind the count there is an argument at the first position. -/
theorem counted_bind {α : Type} {n : String} {f g : Except Misuse α}
    (h : ∀ a, args = [a] → f = g) :
    (expectArguments n 1 args >>= fun _ => f) = (expectArguments n 1 args >>= fun _ => g) := by
  unfold expectArguments
  split
  · rename_i counted
    obtain ⟨a, single⟩ := List.length_eq_one_iff.mp counted
    exact h a single
  · rfl

/-- The argument is always there when it is taken. -/
theorem attempt_eq (p : Primitive) (receiver : Value) (args : List Value) :
    p.attempt receiver args = some <$> p.apply receiver args := by
  cases p with
  | itemsContain =>
    simp only [attempt, apply, map_bind]
    refine counted_bind fun a single => ?_
    subst single
    cases itemsReceiver receiver <;> simp
  | itemsAppend =>
    simp only [attempt, apply, map_bind]
    refine counted_bind fun a single => ?_
    subst single
    rfl
  | _ => rfl

end Primitive

end CapabilityGate
