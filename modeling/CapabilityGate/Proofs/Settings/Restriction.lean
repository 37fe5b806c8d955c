import CapabilityGate.Proofs.Settings.Acceptance

/-!
# What a settings file restricts

In a settings file a grant is a table, which may have a list of patterns, or an array in which the
list comes second; `Settings.patternsOf?` is what stands there as this list. A token is restricted
exactly if there is a list with a pattern in it: `some_pattern_restricts`. An empty list is
accepted, and is worth what no list is worth, everything; the short form of a grant refuses to write
one.
-/
namespace CapabilityGate

namespace Settings

/-- The grants of a document, as they stand there. -/
def grantValues (es : List (String × Toml.Value)) : List Toml.Value :=
  match findEntry "grant" es with
  | some (.array items) => items
  | _ => []

/-- The list of patterns of a grant, as it stands in the document, if there is one. -/
def patternsOf? : Toml.Value → Option Toml.Value
  | .table es => findEntry "patterns" es
  | .array (_ :: list :: _) => some list
  | _ => none

section Shape

variable {es : List (String × Toml.Value)}

theorem optional?_eq_some_iff {α : Type} {value? : Toml.Value → Option α} {key : String}
    {o : Option α} :
    optional? value? key es = some o ↔
      (findEntry key es = none ∧ o = none) ∨
        ∃ v a, findEntry key es = some v ∧ value? v = some a ∧ o = some a := by
  unfold optional?
  cases findEntry key es with
  | none => simp [eq_comm]
  | some v => simp [eq_comm]

/-- **`e.Lists v`** — the entry has a list of patterns exactly if the grant has one in the document,
and it is the same. -/
inductive GrantEntry.Lists (e : GrantEntry) (v : Toml.Value) : Prop where
  /-- There is none. -/
  | no (absent : patternsOf? v = none) (patterns : e.patterns = none)
  /-- There is one. -/
  | these {list : Toml.Value} {texts : List String} (found : patternsOf? v = some list)
      (read : texts? list = some texts) (patterns : e.patterns = some texts)

theorem lists_of_grant? {v : Toml.Value} {e : GrantEntry} (h : grant? v = some e) : e.Lists v := by
  unfold grant? at h
  split at h
  · split at h
    · cases h
    · obtain ⟨c, -, h⟩ := Option.bind_eq_some_iff.mp h
      obtain ⟨o, listed, h⟩ := Option.bind_eq_some_iff.mp h
      cases h
      rcases optional?_eq_some_iff.mp listed with ⟨absent, rfl⟩ | ⟨list, texts, found, read, rfl⟩
      · exact .no absent rfl
      · exact .these found read rfl
  · obtain ⟨c, -, h⟩ := Option.bind_eq_some_iff.mp h
    obtain ⟨texts, read, h⟩ := Option.bind_eq_some_iff.mp h
    cases h
    exact .these rfl read rfl
  · cases h

theorem grants_of_ofEntries? {d : Draft} (h : Draft.ofEntries? es = some d) :
    List.Forall₂ (fun v e => grant? v = some e) (grantValues es) d.grants := by
  unfold Draft.ofEntries? at h
  split at h
  · cases h
  · obtain ⟨runs, -, h⟩ := Option.bind_eq_some_iff.mp h
    obtain ⟨o, listed, h⟩ := Option.bind_eq_some_iff.mp h
    cases h
    rcases optional?_eq_some_iff.mp listed with ⟨absent, rfl⟩ | ⟨v, es', found, read, rfl⟩
    · rw [grantValues, absent]
      exact .nil
    · rw [grantValues, found]
      unfold grants? at read
      split at read
      · exact mapM_eq_some_iff.mp read
      · cases read

end Shape

/-- **`Decides v t`** — the token is for everything if the grant has no list of patterns in the
document, and also if the list is empty. If there is a pattern in it, the token is bounded by the
list. -/
structure Decides (v : Toml.Value) (t : Token) : Prop where
  noList : patternsOf? v = none → t.Boundless
  list : ∀ list, patternsOf? v = some list → ∃ texts, texts? list = some texts ∧
    (texts = [] → t.Boundless) ∧ (texts ≠ [] → t.BoundedBy texts)

theorem decides_of_token [Engine] {v : Toml.Value} {e : GrantEntry} {g : Grant} {t : Token}
    (lists : e.Lists v) (reads : e.Reads g) (h : g.token = .ok t) : Decides v t := by
  obtain ⟨-, boundless, bounded⟩ := Grant.worth h
  rw [reads.patterns] at boundless bounded
  rcases lists with ⟨absent, patterns⟩ | ⟨found, read, patterns⟩
  · constructor
    · intro _
      exact boundless (.inl patterns)
    · intro list found
      rw [absent] at found
      cases found
  · constructor
    · intro absent
      rw [absent] at found
      cases found
    · intro list' found'
      rw [found] at found'
      cases found'
      refine ⟨_, read, ?_, bounded _ patterns⟩
      rintro rfl
      exact boundless (.inr patterns)

theorem decides_all [Engine] {vs : List Toml.Value} {es : List GrantEntry} {gs : List Grant}
    (shaped : List.Forall₂ (fun v e => grant? v = some e) vs es)
    (grants : List.Forall₂ GrantEntry.Reads es gs) (tokens : ∀ g ∈ gs, ∃ t, g.token = .ok t) :
    List.Forall₂ (fun v g => ∃ t, g.token = .ok t ∧ Decides v t) vs gs := by
  induction shaped generalizing gs with
  | nil =>
    cases grants
    exact .nil
  | cons first _ ih =>
    rcases grants with - | ⟨reads, grants⟩
    obtain ⟨t, issued⟩ := tokens _ List.mem_cons_self
    refine .cons ⟨t, issued, decides_of_token (lists_of_grant? first) reads issued⟩ ?_
    exact ih grants fun g member => tokens g (List.mem_cons_of_mem _ member)

end Settings

open Settings

/-- **A list restricts exactly if it has a pattern.** Every grant of an accepted settings file has a
token, as it stands in the document: without a list of patterns, or with an empty one, the token is
for every resource and for all of them at once; with a pattern in the list, it is for what a pattern
of the list matches, and not for all resources. In the short form an equals sign always restricts,
because a list without patterns is refused there, and nothing else does. -/
theorem some_pattern_restricts [Engine] (text : String) (s : Settings)
    (accepted : Settings.ofText text = .ok s) :
    (∃ es, Toml.parse text = some es ∧
      List.Forall₂ (fun v g => ∃ t, g.token = .ok t ∧ Decides v t) (grantValues es) s.grants) ∧
    ∀ raw g, Grant.parse raw = .ok g → ∃ t, g.token = .ok t ∧
      ('=' ∉ raw.toList → t.Boundless) ∧
      ('=' ∈ raw.toList → ∃ texts, texts ≠ [] ∧ g.patterns = some texts ∧ t.BoundedBy texts) := by
  constructor
  · obtain ⟨d, document, accepted⟩ := ofText_eq_ok_iff.mp accepted
    obtain ⟨es, parsed, shaped⟩ := Option.bind_eq_some_iff.mp document
    refine ⟨es, parsed, ?_⟩
    obtain ⟨read, valid⟩ := Draft.accept_eq_ok_iff.mp accepted
    obtain ⟨-, grants⟩ := ofDraft_eq_ok read
    obtain ⟨-, tokens⟩ := validate_eq_ok_iff.mp valid
    exact decides_all (grants_of_ofEntries? shaped) grants tokens
  · intro raw g parsed
    obtain ⟨⟨t, issued⟩, some, equals⟩ := Grant.parse_eq_ok parsed
    obtain ⟨-, boundless, bounded⟩ := Grant.worth issued
    refine ⟨t, issued, ?_, ?_⟩
    · intro noList
      exact boundless (.inl (equals.mpr noList))
    · intro list
      cases listed : g.patterns with
      | none => exact absurd list (equals.mp listed)
      | some texts =>
        rw [listed] at some
        have some : texts ≠ [] := fun none => some (congrArg _ none)
        exact ⟨texts, some, rfl, bounded texts listed some⟩

/-- A settings file with a grant without a list, one with an empty list, and one with a pattern. -/
def mixedGrants : String :=
  "[[grant]]\ncapability='log'\n[[grant]]\ncapability='file.read'\npatterns=[]\n" ++
  "[[grant]]\ncapability='file.write'\npatterns=['/tmp/*']"

theorem parse_mixedGrants : Toml.parse mixedGrants =
    some [("grant", .array [
      .table [("capability", .string "log")],
      .table [("capability", .string "file.read"), ("patterns", .array [])],
      .table [("capability", .string "file.write"),
        ("patterns", .array [.string "/tmp/*"])]])] := by
  cbv

theorem ofText_mixedGrants : Settings.ofText mixedGrants =
    .ok ⟨Config.default, [⟨⟨"log"⟩, none⟩, ⟨⟨"file.read"⟩, some []⟩,
      ⟨⟨"file.write"⟩, some ["/tmp/*"]⟩]⟩ := by
  rw [Settings.ofText, parse_mixedGrants]
  rfl

/-- The grant with the pattern is restricted to it, the other two are not. -/
theorem some_pattern_restricts_mixed :
    ∃ s, Settings.ofText mixedGrants = .ok s ∧
      ∃ t u v, s.grants.map Grant.token = [.ok t, .ok u, .ok v] ∧
        t.Boundless ∧ u.Boundless ∧ v.BoundedBy ["/tmp/*"] := by
  refine ⟨_, ofText_mixedGrants, ?_⟩
  obtain ⟨⟨es, parsed, decided⟩, -⟩ := some_pattern_restricts mixedGrants _ ofText_mixedGrants
  rw [parse_mixedGrants, Option.some.injEq] at parsed
  subst parsed
  rcases decided with - | ⟨⟨t, first, noList⟩, decided⟩
  rcases decided with - | ⟨⟨u, second, emptyList⟩, decided⟩
  rcases decided with - | ⟨⟨v, third, pattern⟩, -⟩
  obtain ⟨texts, read, boundless, -⟩ := emptyList.list _ rfl
  obtain ⟨texts', read', -, bounded⟩ := pattern.list _ rfl
  cases read
  cases read'
  refine ⟨t, u, v, ?_, noList.noList rfl, boundless rfl, bounded (by simp)⟩
  rw [List.map_cons, List.map_cons, List.map_cons, first, second, third, List.map_nil]

/-- The empty list of a settings file admits resources, although no pattern of it matches one. -/
theorem empty_list_restricts_nothing :
    ¬ ∀ s, Settings.ofText mixedGrants = .ok s → ∀ g ∈ s.grants, ∀ texts, g.patterns = some texts →
      ∃ t, g.token = .ok t ∧ t.covers none = false ∧
        ∀ resource, t.covers (some resource) = true →
          ∃ p : Pattern, p.text ∈ texts ∧ p.matches resource = true := by
  intro restricted
  obtain ⟨t, issued, -, only⟩ := restricted _ ofText_mixedGrants ⟨⟨"file.read"⟩, some []⟩
    (by simp) [] rfl
  cases issued
  obtain ⟨p, listed, -⟩ := only "/etc/passwd" rfl
  exact List.not_mem_nil listed

end CapabilityGate
