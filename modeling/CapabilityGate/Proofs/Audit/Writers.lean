import CapabilityGate.Proofs.Audit.Chain

/-!
# A log with several writers

Any number of workers write to one log. What a worker has to do is a list of writes: single records,
and lists of records that are appended one after the other. The workers are interleaved in any way,
and what is atomic is the append of one record, so others may come between two records of one list.

`Writers` is the log together with what each worker has still to do. It also notes who has written
what, which the log itself forgets. `Writers.step` is one atomic step of one worker, and
`shared_log_consistent` says what every reader finds between any two of them.
-/
namespace CapabilityGate

/-- What a worker does to a log. -/
inductive Write where
  /-- Appends a record. -/
  | one (record : Record)
  /-- Appends records one by one. -/
  | all (records : List Record)

/-- The records of writes, in order. -/
def Write.recordsOf : List Write → List Record
  | [] => []
  | one r :: ws => r :: recordsOf ws
  | all rs :: ws => rs ++ recordsOf ws

/-- A log and its writers. -/
structure Writers where
  log : Log
  /-- What each worker has still to do; a worker goes by its position. -/
  todo : List (List Write)
  /-- The records that were written, oldest first, each with the worker who wrote it. -/
  written : List (Nat × Record)

namespace Writers

/-- An empty log, and workers with all their work before them. -/
def start (programs : List (List Write)) : Writers := ⟨.empty, programs, []⟩

/-- Worker `i` appends a record and then has `rest` to do. -/
def write (s : Writers) (i : Nat) (r : Record) (rest : List Write) : Writers :=
  { log := s.log.append r, todo := s.todo.set i rest, written := s.written ++ [(i, r)] }

/-- **`s.step i`** — one atomic step of worker `i`: the next record is appended, or a list that has
come to its end is put aside. A worker who has nothing to do does nothing. -/
def step (s : Writers) (i : Nat) : Writers :=
  match s.todo[i]? with
  | some (.one r :: ws) => s.write i r ws
  | some (.all (r :: rs) :: ws) => s.write i r (.all rs :: ws)
  | some (.all [] :: ws) => { s with todo := s.todo.set i ws }
  | some [] => s
  | none => s

/-- The steps of a schedule, which names the worker of each step. -/
def steps (s : Writers) (schedule : List Nat) : Writers := schedule.foldl step s

/-- The records that worker `i` has written, oldest first. -/
def writtenBy (s : Writers) (i : Nat) : List Record :=
  (s.written.filter (·.1 = i)).map Prod.snd

/-- The records that worker `i` has still to write. -/
def pending (s : Writers) (i : Nat) : List Record := Write.recordsOf (s.todo[i]?.getD [])

variable (s : Writers) (i j : Nat)

/-- **What a step can do**: a worker writes the next of the records that it has to write, or nobody
writes anything and all have to write what they had to. -/
theorem step_cases :
    (∃ r rest, s.todo[i]? ≠ none ∧ s.pending i = r :: Write.recordsOf rest ∧
      s.step i = s.write i r rest) ∨
    ((s.step i).log = s.log ∧ (s.step i).written = s.written ∧
      ∀ j, (s.step i).pending j = s.pending j) := by
  unfold step
  split
  · rename_i r ws there
    refine .inl ⟨r, ws, by simp [there], ?_, rfl⟩
    simp [pending, there, Write.recordsOf]
  · rename_i r rs ws there
    refine .inl ⟨r, .all rs :: ws, by simp [there], ?_, rfl⟩
    simp [pending, there, Write.recordsOf]
  · rename_i ws there
    refine .inr ⟨rfl, rfl, fun j => ?_⟩
    show Write.recordsOf ((s.todo.set i ws)[j]?.getD []) = Write.recordsOf (s.todo[j]?.getD [])
    by_cases same : i = j
    · subst same
      obtain ⟨bound, -⟩ := List.getElem?_eq_some_iff.mp there
      rw [List.getElem?_set_self bound, there]
      rfl
    · rw [List.getElem?_set_ne same]
  · exact .inr ⟨rfl, rfl, fun _ => rfl⟩
  · exact .inr ⟨rfl, rfl, fun _ => rfl⟩

theorem writtenBy_write (r : Record) (rest : List Write) :
    (s.write i r rest).writtenBy j = s.writtenBy j ++ if i = j then [r] else [] := by
  by_cases same : i = j <;> simp [writtenBy, write, same]

theorem pending_write {i : Nat} (there : s.todo[i]? ≠ none) (r : Record) (rest : List Write) :
    (s.write i r rest).pending j = if i = j then Write.recordsOf rest else s.pending j := by
  show Write.recordsOf ((s.todo.set i rest)[j]?.getD []) = _
  by_cases same : i = j
  · subst same
    have bound : i < s.todo.length := by
      rw [ne_eq, List.getElem?_eq_none_iff] at there
      omega
    rw [List.getElem?_set_self bound, if_pos rfl]
    rfl
  · rw [List.getElem?_set_ne same, if_neg same]
    rfl

/-! ## What every step keeps -/

/-- The log is intact, it holds what was written in the order of writing, and each worker has
written, and has still to write, what it was given to write. -/
structure Sound (programs : List (List Write)) (s : Writers) : Prop where
  intact : s.log.Intact
  records : s.log.records = s.written.map Prod.snd
  shares : ∀ i, s.writtenBy i ++ s.pending i = Write.recordsOf (programs[i]?.getD [])

variable {s} {programs : List (List Write)}

theorem sound_start : (start programs).Sound programs :=
  ⟨Log.intact_empty, rfl, fun _ => rfl⟩

theorem Sound.step (h : s.Sound programs) (i : Nat) : (s.step i).Sound programs := by
  rcases s.step_cases i with ⟨r, rest, there, next, step⟩ | ⟨log, written, pending⟩
  · rw [step]
    constructor
    · exact h.intact.append r
    · show s.log.records ++ [r] = (s.written ++ [(i, r)]).map Prod.snd
      rw [h.records, List.map_append]
      rfl
    · intro j
      rw [writtenBy_write, pending_write s j there, ← h.shares j]
      by_cases same : i = j
      · subst same
        rw [if_pos rfl, if_pos rfl, next, List.append_assoc]
        rfl
      · rw [if_neg same, if_neg same, List.append_nil]
  · constructor
    · rw [log]
      exact h.intact
    · rw [log, written]
      exact h.records
    · intro j
      rw [pending, writtenBy, written]
      exact h.shares j

/-- What was written before a step stays written, and the log is extended by the rest. -/
theorem step_extends (s : Writers) (i : Nat) :
    ∃ new, (s.step i).written = s.written ++ new ∧
      (s.step i).log = s.log.extend (new.map Prod.snd) := by
  rcases s.step_cases i with ⟨r, rest, -, -, step⟩ | ⟨log, written, -⟩
  · exact ⟨[(i, r)], by rw [step]; rfl, by rw [step]; rfl⟩
  · exact ⟨[], by rw [written, List.append_nil], log⟩

/-! ## Whole schedules -/

variable (s) (schedule : List Nat)

theorem Sound.steps {s : Writers} (h : s.Sound programs) : (s.steps schedule).Sound programs := by
  unfold Writers.steps
  induction schedule generalizing s with
  | nil => exact h
  | cons i schedule ih => exact ih (h.step i)

theorem steps_extends :
    ∃ new, (s.steps schedule).written = s.written ++ new ∧
      (s.steps schedule).log = s.log.extend (new.map Prod.snd) := by
  unfold Writers.steps
  induction schedule generalizing s with
  | nil => exact ⟨[], by simp, rfl⟩
  | cons i schedule ih =>
    obtain ⟨first, written, log⟩ := s.step_extends i
    obtain ⟨later, written', log'⟩ := ih (s.step i)
    refine ⟨first ++ later, ?_, ?_⟩
    · rw [List.foldl_cons, written', written, List.append_assoc]
    · rw [List.foldl_cons, log', log, List.map_append, Log.extend_append]

end Writers

/-- **The log stays whole whoever writes to it.** Let any number of workers each do its writes, let
single appends be interleaved in any way, and let somebody look at the log after the steps `before`
and again after the steps `after`. Whoever looks finds a consistent log. What was there the first
time is still there, and the records since a mark that was taken then are those written in the
meantime; a mark past the end stands for none. The records are those that the workers have written,
each once, as if one writer had appended them: each worker's in the order in which it was given them,
with only those missing that it has still to write. -/
theorem shared_log_consistent (programs : List (List Write)) (before after : List Nat) :
    let early := (Writers.start programs).steps before
    let late := early.steps after
    late.log.Consistent ∧
    (early.log.records <+: late.log.records ∧ early.log.hashes <+: late.log.hashes) ∧
    (∃ new, late.written = early.written ++ new ∧
      late.log.since early.log.mark = new.map Prod.snd) ∧
    (∀ mark, late.log.mark ≤ mark → late.log.since mark = []) ∧
    (late.log.records = late.written.map Prod.snd ∧
      late.log = Log.empty.extend (late.written.map Prod.snd)) ∧
    ∀ i program, programs[i]? = some program →
      late.writtenBy i ++ late.pending i = Write.recordsOf program := by
  intro early late
  have soundEarly : early.Sound programs := Writers.sound_start.steps before
  have sound : late.Sound programs := soundEarly.steps after
  obtain ⟨new, written, log⟩ := early.steps_extends after
  have grown : late.log = early.log.extend (new.map Prod.snd) := log
  refine ⟨sound.intact.consistent, ?_, ⟨new, written, ?_⟩, ?_, ⟨sound.records, ?_⟩, ?_⟩
  · rw [grown]
    exact early.log.prefix_extend _
  · rw [Log.since, Log.mark, grown, Log.extend_records, List.drop_left]
  · intro mark past
    exact List.drop_eq_nil_of_le past
  · obtain ⟨all, writtenAll, logAll⟩ := (Writers.start programs).steps_extends (before ++ after)
    have whole : (Writers.start programs).steps (before ++ after) = late := List.foldl_append
    rw [whole] at writtenAll logAll
    rw [logAll, writtenAll]
    rfl
  · intro i program there
    have shares := sound.shares i
    rw [there] at shares
    exact shares

end CapabilityGate
