import CapabilityGate.Settings.Basic
import CapabilityGate.Proofs.Settings.Grants

/-!
# Which settings are accepted

Settings are accepted or refused as a whole. `Draft.Sound` says what a document of the right shape
has to give: some time, enough memory, and sizes, kinds of isolation, names and patterns that can be
read. `Draft.Flaw` goes with it, one case for each cause that a refusal can name. Reading and
validating come one after the other and stop at the first flaw. `Draft.exists_accept_iff` says that
they accept exactly what is sound, and `Draft.flaw_of_accept_eq_error` that a refusal names a flaw
that is there.

What the settings then are is said part by part: `SandboxEntry.Reads` for the settings of runs, with
the defaults, and `GrantEntry.Reads` for a grant.
-/
namespace CapabilityGate

namespace Settings

/-! ## Sound entries and flaws -/

/-- **`e.Reads c`** — the settings `c` of runs have what the entry gives, read, and the default for
what it does not give. -/
structure SandboxEntry.Reads (e : SandboxEntry) (c : Config) : Prop where
  timeout : c.timeout = (e.timeoutMillis.map Duration.ofMillis).getD Config.default.timeout
  memory_default : e.memory = none → c.memory = Config.default.memory
  memory : ∀ m, e.memory = some m → m.size = .ok c.memory
  security : c.security = e.security.getD Config.default.security
  isolation_default : e.isolation = none → c.isolation = Config.default.isolation
  isolation : ∀ s, e.isolation = some s → Isolation.parse s = .ok c.isolation

/-- **`e.Reads g`** — the grant has the capability that the entry names, and its list of patterns.
-/
structure GrantEntry.Reads (e : GrantEntry) (g : Grant) : Prop where
  name : Capability.parse e.capability = .ok g.capability
  patterns : g.patterns = e.patterns

/-- The entry gives settings that a run can have. -/
structure SandboxEntry.Sound (e : SandboxEntry) : Prop where
  time : e.timeoutMillis ≠ some 0
  memory : ∀ m, e.memory = some m →
    ∃ size, m.size = .ok size ∧ Config.leastMemory.bytes ≤ size.bytes
  isolation : ∀ s, e.isolation = some s → ∃ i, Isolation.parse s = .ok i

/-- The entry names a capability, and each of its patterns is accepted. -/
structure GrantEntry.Sound [Engine] (e : GrantEntry) : Prop where
  name : ∃ c, Capability.parse e.capability = .ok c
  patterns : ∀ texts, e.patterns = some texts → ∀ text ∈ texts, Pattern.Accepted text

/-- Everything in the draft is sound. -/
structure Draft.Sound [Engine] (d : Draft) : Prop where
  sandbox : d.sandbox.Sound
  grants : ∀ e ∈ d.grants, e.Sound

/-- **`e.Flaw err`** — what `err` says is wrong with settings of runs is wrong with this entry. -/
inductive SandboxEntry.Flaw (e : SandboxEntry) : Error → Prop where
  /-- No time at all. -/
  | noTime (given : e.timeoutMillis = some 0) : e.Flaw (.config .noTime)
  /-- Less memory than a run needs. -/
  | memory {m : MemoryEntry} {size : ByteSize} (given : e.memory = some m)
      (read : m.size = .ok size) (little : size.bytes < Config.leastMemory.bytes) :
      e.Flaw (.config .memory)
  /-- A text that is no size. -/
  | size {s : String} {err : ByteSize.Error} (given : e.memory = some (.text s))
      (refused : ByteSize.parse s = .error err) : e.Flaw (.size err)
  /-- A text that is no kind of isolation. -/
  | isolation {s : String} {err : Isolation.Error} (given : e.isolation = some s)
      (refused : Isolation.parse s = .error err) : e.Flaw (.isolation err)

/-- **`e.Flaw err`** — what `err` says is wrong with a grant is wrong with this entry. -/
inductive GrantEntry.Flaw [Engine] (e : GrantEntry) : Error → Prop where
  /-- A text that is no name. -/
  | name {err : Capability.NameError} (refused : Capability.parse e.capability = .error err) :
      e.Flaw (.name err)
  /-- A pattern that is empty or does not compile, reported under the name of its grant. -/
  | pattern {c : Capability} {texts : List String} {text : String} {err : Pattern.Error}
      (named : Capability.parse e.capability = .ok c) (listed : e.patterns = some texts)
      (member : text ∈ texts) (refused : Pattern.parse text = .error err) :
      e.Flaw (.pattern c err)

/-- **`d.Flaw err`** — what `err` says is wrong is wrong with some part of the draft. -/
inductive Draft.Flaw [Engine] (d : Draft) : Error → Prop where
  /-- In the settings of runs. -/
  | sandbox {err : Error} (h : d.sandbox.Flaw err) : d.Flaw err
  /-- In one of the grants. -/
  | grant {e : GrantEntry} {err : Error} (member : e ∈ d.grants) (h : e.Flaw err) : d.Flaw err

variable {d : Draft} {s : Settings} {c : Config} {g : Grant} {err : Error}

/-- Nothing sound has a flaw. -/
theorem SandboxEntry.Sound.no_flaw {e : SandboxEntry} (sound : e.Sound) : ¬ e.Flaw err := by
  intro flaw
  cases flaw with
  | noTime given => exact sound.time given
  | memory given read little =>
    obtain ⟨size, read', enough⟩ := sound.memory _ given
    rw [read] at read'
    cases read'
    exact absurd enough (UInt64.not_le.mpr little)
  | size given refused =>
    obtain ⟨size, read, -⟩ := sound.memory _ given
    rw [MemoryEntry.size, refused] at read
    cases read
  | isolation given refused =>
    obtain ⟨i, read⟩ := sound.isolation _ given
    rw [refused] at read
    cases read

theorem GrantEntry.Sound.no_flaw [Engine] {e : GrantEntry} (sound : e.Sound) : ¬ e.Flaw err := by
  intro flaw
  cases flaw with
  | name refused =>
    obtain ⟨c, read⟩ := sound.name
    rw [refused] at read
    cases read
  | pattern _ listed member refused =>
    obtain ⟨p, parsed⟩ := Pattern.exists_parse_iff.mpr (sound.patterns _ listed _ member)
    rw [refused] at parsed
    cases parsed

theorem Draft.Sound.no_flaw [Engine] (sound : d.Sound) : ¬ d.Flaw err := by
  rintro (h | ⟨member, h⟩)
  · exact sound.sandbox.no_flaw h
  · exact (sound.grants _ member).no_flaw h

/-! ## Reading -/

/-- The memory of an entry, or the default. -/
def SandboxEntry.memoryOrDefault (e : SandboxEntry) : Except Error ByteSize :=
  match e.memory with
  | none => .ok Config.default.memory
  | some m => m.size

/-- The kind of isolation of an entry, or the default. -/
def SandboxEntry.isolationOrDefault (e : SandboxEntry) : Except Error Isolation :=
  match e.isolation with
  | none => .ok Config.default.isolation
  | some s => (Isolation.parse s).mapError .isolation

theorem SandboxEntry.config_eq (e : SandboxEntry) :
    e.config = do
      let memory ← e.memoryOrDefault
      let isolation ← e.isolationOrDefault
      return { timeout := (e.timeoutMillis.map Duration.ofMillis).getD Config.default.timeout
               memory
               security := e.security.getD Config.default.security
               isolation } := by
  unfold config memoryOrDefault isolationOrDefault
  cases e.memory <;> cases e.isolation <;> rfl

theorem SandboxEntry.config_eq_ok {e : SandboxEntry} (h : e.config = .ok c) : e.Reads c := by
  rw [config_eq] at h
  obtain ⟨memory, size, h⟩ := bind_eq_ok_iff.mp h
  obtain ⟨isolation, word, h⟩ := bind_eq_ok_iff.mp h
  cases h
  unfold memoryOrDefault at size
  unfold isolationOrDefault at word
  constructor
  · rfl
  · intro absent
    rw [absent] at size
    cases size
    rfl
  · intro m given
    rw [given] at size
    exact size
  · rfl
  · intro absent
    rw [absent] at word
    cases word
    rfl
  · intro s given
    rw [given] at word
    exact mapError_eq_ok_iff.mp word

/-- Only a text can fail to be a size. -/
theorem SandboxEntry.memoryOrDefault_eq_error {e : SandboxEntry}
    (h : e.memoryOrDefault = .error err) : e.Flaw err := by
  unfold memoryOrDefault at h
  split at h
  · cases h
  · rename_i m given
    cases m with
    | bytes n => cases h
    | text s =>
      obtain ⟨cause, refused, rfl⟩ := mapError_eq_error_iff.mp h
      exact .size given refused

theorem SandboxEntry.isolationOrDefault_eq_error {e : SandboxEntry}
    (h : e.isolationOrDefault = .error err) : e.Flaw err := by
  unfold isolationOrDefault at h
  split at h
  · cases h
  · rename_i s given
    obtain ⟨cause, refused, rfl⟩ := mapError_eq_error_iff.mp h
    exact .isolation given refused

theorem SandboxEntry.config_eq_error {e : SandboxEntry} (h : e.config = .error err) :
    e.Flaw err := by
  rw [config_eq] at h
  rcases bind_eq_error_iff.mp h with size | ⟨memory, -, h⟩
  · exact memoryOrDefault_eq_error size
  · rcases bind_eq_error_iff.mp h with word | ⟨isolation, -, h⟩
    · exact isolationOrDefault_eq_error word
    · cases h

theorem GrantEntry.grant_eq_ok {e : GrantEntry} (h : e.grant = .ok g) : e.Reads g := by
  unfold grant at h
  split at h
  · cases h
  · rename_i c named
    cases h
    exact ⟨named, rfl⟩

theorem GrantEntry.grant_eq_error [Engine] {e : GrantEntry} (h : e.grant = .error err) :
    e.Flaw err := by
  unfold grant at h
  split at h
  · rename_i cause refused
    cases h
    exact .name refused
  · cases h

theorem ofDraft_eq_ok (h : ofDraft d = .ok s) :
    d.sandbox.Reads s.sandbox ∧ List.Forall₂ GrantEntry.Reads d.grants s.grants := by
  obtain ⟨c, runs, h⟩ := bind_eq_ok_iff.mp h
  obtain ⟨gs, grants, h⟩ := bind_eq_ok_iff.mp h
  cases h
  exact ⟨SandboxEntry.config_eq_ok runs,
    (mapM_eq_ok_iff.mp grants).imp fun _ _ => GrantEntry.grant_eq_ok⟩

theorem ofDraft_eq_error [Engine] (h : ofDraft d = .error err) : d.Flaw err := by
  rcases bind_eq_error_iff.mp h with runs | ⟨c, -, h⟩
  · exact .sandbox (SandboxEntry.config_eq_error runs)
  · rcases bind_eq_error_iff.mp h with grants | ⟨gs, -, h⟩
    · obtain ⟨e, member, bad⟩ := mapM_eq_error grants
      exact .grant member (GrantEntry.grant_eq_error bad)
    · cases h

/-! ## Validating -/

theorem validate_config_iff :
    c.validate = .ok () ↔ c.timeout ≠ .zero ∧ Config.leastMemory.bytes ≤ c.memory.bytes := by
  rw [← UInt64.not_lt]
  unfold Config.validate
  by_cases noTime : c.timeout = .zero
  · simp [noTime]
  · by_cases little : c.memory.bytes < Config.leastMemory.bytes
    · simp [noTime, little]
    · simp [noTime, little]

theorem checkGrant_eq_ok_iff [Engine] : checkGrant g = .ok () ↔ ∃ t, g.token = .ok t := by
  unfold checkGrant
  cases g.token <;> simp

theorem checkGrant_eq_error [Engine] (h : checkGrant g = .error err) :
    ∃ cause, g.token = .error cause ∧ err = .pattern g.capability cause := by
  unfold checkGrant at h
  split at h
  · rename_i cause refused
    cases h
    exact ⟨cause, refused, rfl⟩
  · cases h

theorem validate_eq_ok_iff [Engine] :
    s.validate = .ok () ↔ s.sandbox.validate = .ok () ∧ ∀ g ∈ s.grants, ∃ t, g.token = .ok t := by
  simp only [← checkGrant_eq_ok_iff, ← forM_eq_ok_iff]
  constructor
  · intro h
    obtain ⟨_, runs, grants⟩ := bind_eq_ok_iff.mp h
    exact ⟨mapError_eq_ok_iff.mp runs, grants⟩
  · rintro ⟨runs, grants⟩
    exact bind_eq_ok_iff.mpr ⟨(), mapError_eq_ok_iff.mpr runs, grants⟩

/-! ## Reading and validating -/

/-- **`d.accept`** — the settings of a draft, if they are valid. -/
def Draft.accept [Engine] (d : Draft) : Except Error Settings := do
  let s ← ofDraft d
  s.validate
  return s

theorem Draft.accept_eq_ok_iff [Engine] :
    d.accept = .ok s ↔ ofDraft d = .ok s ∧ s.validate = .ok () := by
  constructor
  · intro h
    obtain ⟨s', read, h⟩ := bind_eq_ok_iff.mp h
    obtain ⟨_, valid, h⟩ := bind_eq_ok_iff.mp h
    cases h
    exact ⟨read, valid⟩
  · rintro ⟨read, valid⟩
    exact bind_eq_ok_iff.mpr ⟨s, read, bind_eq_ok_iff.mpr ⟨(), valid, rfl⟩⟩

/-- The defaults are valid, so what is not valid has been given. -/
theorem SandboxEntry.Reads.validate_eq_error {e : SandboxEntry} {cause : Config.Error}
    (reads : e.Reads c) (h : c.validate = .error cause) : e.Flaw (.config cause) := by
  unfold Config.validate at h
  split at h
  · rename_i noTime
    cases h
    apply Flaw.noTime
    rw [reads.timeout] at noTime
    cases given : e.timeoutMillis with
    | none =>
      rw [given] at noTime
      exact absurd noTime (by decide)
    | some n =>
      rw [given] at noTime
      have zero : n * 1000000 = 0 := Timeout.ofNanos_eq_zero_iff.mp noTime
      exact congrArg some (by omega)
  · split at h
    · rename_i little
      cases h
      cases given : e.memory with
      | none =>
        rw [reads.memory_default given] at little
        exact absurd little (by decide)
      | some m => exact .memory given (reads.memory m given) little
    · cases h

theorem SandboxEntry.Reads.sound {e : SandboxEntry} (reads : e.Reads c)
    (valid : c.validate = .ok ()) : e.Sound := by
  obtain ⟨time, enough⟩ := validate_config_iff.mp valid
  constructor
  · intro given
    apply time
    rw [reads.timeout, given]
    rfl
  · intro m given
    exact ⟨c.memory, reads.memory m given, enough⟩
  · intro s given
    exact ⟨c.isolation, reads.isolation s given⟩

theorem GrantEntry.Reads.sound [Engine] {e : GrantEntry} (reads : e.Reads g)
    (valid : ∃ t, g.token = .ok t) : e.Sound := by
  rw [Grant.exists_token_iff, reads.patterns] at valid
  exact ⟨⟨g.capability, reads.name⟩, valid⟩

/-- **A refusal names a flaw that is there.** -/
theorem Draft.flaw_of_accept_eq_error [Engine] (h : d.accept = .error err) : d.Flaw err := by
  rcases bind_eq_error_iff.mp h with unread | ⟨s, read, h⟩
  · exact ofDraft_eq_error unread
  · obtain ⟨runs, grants⟩ := ofDraft_eq_ok read
    rcases bind_eq_error_iff.mp h with invalid | ⟨_, -, h⟩
    · rcases bind_eq_error_iff.mp invalid with invalid | ⟨_, -, invalid⟩
      · obtain ⟨cause, noRuns, rfl⟩ := mapError_eq_error_iff.mp invalid
        exact .sandbox (runs.validate_eq_error noRuns)
      · obtain ⟨g, member, noToken⟩ := forM_eq_error invalid
        obtain ⟨cause, refused, rfl⟩ := checkGrant_eq_error noToken
        obtain ⟨texts, listed, text, bad, refused⟩ := Grant.token_eq_error refused
        obtain ⟨e, member, reads⟩ := forall₂_mem_right grants member
        rw [reads.patterns] at listed
        exact .grant member (.pattern reads.name listed bad refused)
    · cases h

theorem Draft.sound_of_accept_eq_ok [Engine] (h : d.accept = .ok s) : d.Sound := by
  obtain ⟨read, valid⟩ := accept_eq_ok_iff.mp h
  obtain ⟨runs, grants⟩ := ofDraft_eq_ok read
  obtain ⟨valid, tokens⟩ := validate_eq_ok_iff.mp valid
  refine ⟨runs.sound valid, fun e member => ?_⟩
  obtain ⟨g, member, reads⟩ := forall₂_mem_left grants member
  exact reads.sound (tokens g member)

/-- **What is sound is accepted, and nothing else.** -/
theorem Draft.exists_accept_iff [Engine] : (∃ s, d.accept = .ok s) ↔ d.Sound := by
  constructor
  · rintro ⟨s, h⟩
    exact sound_of_accept_eq_ok h
  · intro sound
    cases h : d.accept with
    | ok s => exact ⟨s, rfl⟩
    | error err => exact absurd (flaw_of_accept_eq_error h) sound.no_flaw

/-- The draft of a text, if it is a document of the right shape. -/
def Draft.ofText? (text : String) : Option Draft := (Toml.parse text).bind ofEntries?

theorem ofText_of_draft [Engine] {text : String} (h : Draft.ofText? text = some d) :
    ofText text = d.accept := by
  unfold Draft.ofText? at h
  rw [ofText, ofDocument, h]
  rfl

theorem ofText_eq_ok_iff [Engine] {text : String} :
    ofText text = .ok s ↔ ∃ d, Draft.ofText? text = some d ∧ d.accept = .ok s := by
  constructor
  · intro h
    cases shaped : Draft.ofText? text with
    | none =>
      unfold Draft.ofText? at shaped
      rw [ofText, ofDocument, shaped] at h
      cases h
    | some d =>
      rw [ofText_of_draft shaped] at h
      exact ⟨d, rfl, h⟩
  · rintro ⟨d, shaped, h⟩
    rw [ofText_of_draft shaped]
    exact h

end Settings

end CapabilityGate
