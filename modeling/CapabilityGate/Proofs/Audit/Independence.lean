import CapabilityGate.Proofs.Audit.Chain
import CapabilityGate.Proofs.Evaluation.Likeness

/-!
# Decisions without the log

Denials are written to the log at every depth, and bodies act on the faults that come with them, but
nothing ever reads the log to decide. So two worlds that differ in their logs only are like each
other in the sense of `Likeness`: whatever is evaluated in them, what is appended to one log is
appended to the other, and no other difference comes up. Contexts are the same in both, so nothing
has to be kept away from the evaluation: its purview is `Purview.everything`.
-/
namespace CapabilityGate

/-! ## An evaluation that may have to do with everything -/

/-- Every context may be activated and every run may be started. -/
def Purview.everything : Purview where
  known _ := True
  admits _ _ := True
  known_of_admits _ := trivial

theorem Script.keepsTo_everything (s : Script) : s.KeepsTo .everything := by
  induction s with
  | finish | panic | exit => trivial
  | call callee args next ih => exact ih
  | require capability resource operation next ih => exact ih
  | find name next ih => exact fun answer _ => ih answer
  | within context body next body_ih ih => exact ⟨trivial, body_ih, ih⟩
  | current next ih => exact ih
  | revoke revocation next ih => exact ih
  | cancel next ih => exact ih
  | report result next ih => exact ih
  | sleep time next ih => exact ih
  | launch context config unit next unit_ih ih => exact ⟨trivial, unit_ih, ih⟩
  | raise signal next ih => exact ih
  | allocate bytes next ih => exact ih

theorem Catalog.keepsTo_everything (c : Catalog Body) : c.KeepsTo .everything :=
  fun _ body _ receiver args => (body receiver args).keepsTo_everything

/-! ## Worlds that differ in their logs -/

/-- **`World.LoggedAlike l l' w v`** — the two worlds differ in nothing but their logs, and these
have grown from `l` and from `l'` by the same records. -/
def World.LoggedAlike (l l' : Log) (w v : World) : Prop :=
  ∃ new, w.log = l.extend new ∧ v = { w with log := l'.extend new }

theorem World.loggedAlike_self (w : World) (log : Log) :
    LoggedAlike w.log log w { w with log } :=
  ⟨[], rfl, rfl⟩

/-- The likeness of worlds with the same contexts, whose logs grow by the same records. -/
def Likeness.loggedAlike (l l' : Log) : Likeness .everything where
  stores := Eq
  logs k k' := ∃ new, k = l.extend new ∧ k' = l'.extend new
  lineageOf same _ := by rw [same]
  hold same _ := by rw [same]
  release same _ := by rw [same]
  run := by
    intro w v context config same _
    unfold runContext heldForRun unrestrictedContext
    rw [same]
    exact ⟨rfl, trivial, rfl⟩
  append := by
    rintro k k' r ⟨new, rfl, rfl⟩
    exact ⟨new ++ [r], (l.extend_append new [r]).symm, (l'.extend_append new [r]).symm⟩

theorem Likeness.matches_loggedAlike (l l' : Log) :
    (Likeness.loggedAlike l l').Matches = World.LoggedAlike l l' := by
  funext w v
  apply propext
  constructor
  · rintro ⟨⟨store, log, rfl⟩, stores, ⟨new, grown, grown'⟩, -⟩
    obtain rfl : w.store = store := stores
    obtain rfl : log = l'.extend new := grown'
    exact ⟨new, grown, rfl⟩
  · rintro ⟨new, grown, rfl⟩
    exact ⟨⟨w.store, _, rfl⟩, rfl, ⟨new, grown, rfl⟩, fun _ _ _ => trivial⟩

/-! ## Evaluations -/

/-- What becomes of a call, and the answer to a question for a token, do not depend on the log. -/
theorem Gate.answers_without_log (g : Gate) (m : Machine) (log : Log) :
    let twin : Machine := ⟨{ m.world with log }, m.thread⟩
    (∀ callee args, g.decision callee args twin = g.decision callee args m) ∧
    ∀ capability resource operation,
      (g.coveringToken capability resource operation twin).1 =
        (g.coveringToken capability resource operation m).1 := by
  intro twin
  refine ⟨fun callee args => rfl, fun capability resource operation => ?_⟩
  have alike : (Likeness.loggedAlike m.world.log log).Matches m.world { m.world with log } := by
    rw [Likeness.matches_loggedAlike]
    exact m.world.loggedAlike_self log
  obtain ⟨answer, w', v', -, left, right⟩ :=
    Gate.coveringToken_inStep (g := g) (t := m.thread) alike (fun _ _ => trivial) capability
      resource operation
  show (g.coveringToken capability resource operation ⟨{ m.world with log }, m.thread⟩).1 =
    (g.coveringToken capability resource operation ⟨m.world, m.thread⟩).1
  rw [left, right]

/-- **The log is never consulted.** Evaluate a script through a gate twice, in worlds that differ
only in what was in the log before. The two evaluations go the same way: they wait at the same
times, and whoever shares the worlds and keeps them alike finds and leaves them alike after every
wait, also in what the evaluations leave behind in the background. Followed to their ends both
return the same value or fault, panic with the same message or die of the same; the threads come
back with the same register and depth; and the worlds differ in nothing but the logs, which have
grown by the same records: so the same bodies were entered, in the same order. No gate answers a
call or a question for a token differently on a machine with another log. -/
theorem log_never_consulted (g : Gate) (runs room : Nat) (s : Script) (w : World) (t : Thread)
    (log : Log) :
    let evaluation := s.evaluate (callAt (launchAt runs) room) (launchAt runs) g
    let twin : World := { w with log }
    let alike := World.LoggedAlike w.log log
    (evaluation ⟨w, t⟩).InStep alike (Return.InStep alike t) (evaluation ⟨twin, t⟩) ∧
    (match (evaluation ⟨w, t⟩).finish, (evaluation ⟨twin, t⟩).finish with
      | .ok (r, w'), .ok (r', v') =>
        r.result = r'.result ∧ r.thread = t ∧ r'.thread = t ∧
          ∃ new, w'.log = w.log.extend new ∧ v' = { w' with log := log.extend new }
      | .error (death, w'), .error (death', v') =>
        death = death' ∧ ∃ new, w'.log = w.log.extend new ∧ v' = { w' with log := log.extend new }
      | _, _ => False) ∧
    ∀ (h : Gate) (m : Machine) (log : Log),
      let twin : Machine := ⟨{ m.world with log }, m.thread⟩
      (∀ callee args, h.decision callee args twin = h.decision callee args m) ∧
      ∀ capability resource operation,
        (h.coveringToken capability resource operation twin).1 =
          (h.coveringToken capability resource operation m).1 := by
  intro evaluation twin alike
  have catalog := g.catalog.keepsTo_everything
  have launches := launchAt_inStep catalog runs (Likeness.loggedAlike w.log log)
  have calls := callAt_inStep catalog launches room
  have inStep := s.evaluate_inStep rfl calls launches s.keepsTo_everything
  rw [Likeness.matches_loggedAlike] at inStep
  have together := inStep w twin t (fun _ _ => trivial) (w.loggedAlike_self log)
  refine ⟨together, ?_, fun h m log => h.answers_without_log m log⟩
  have ends := together.finish fun w v time => by
    rintro ⟨new, grown, rfl⟩
    exact ⟨new, grown, rfl⟩
  generalize (evaluation ⟨w, t⟩).finish = first at ends ⊢
  generalize (evaluation ⟨twin, t⟩).finish = second at ends ⊢
  cases first with
  | ok first =>
    cases second with
    | ok second =>
      obtain ⟨back, worlds⟩ := ends
      exact ⟨back.result, back.thread.1, back.thread.2, worlds⟩
    | error second => exact ends
  | error first =>
    cases second with
    | ok second => exact ends
    | error second => exact ends

end CapabilityGate
