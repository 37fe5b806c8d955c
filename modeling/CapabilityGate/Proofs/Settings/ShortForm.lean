import CapabilityGate.Proofs.Capability.Naming
import CapabilityGate.Proofs.Settings.Grants
import CapabilityGate.Proofs.Text.Fields
import CapabilityGate.Proofs.Text.Trim

/-!
# The short form of a grant

`Grant.short` writes a grant as one text, a capability and the patterns behind an equals sign.
`Grant.Listable` says which texts can stand there as patterns. `short_form_exact` says that what is
written is read back as it is, if the patterns compile, and that nothing else is read: whatever text
is accepted, the grant that it gives can be written, and only an equals sign restricts it.
-/
namespace CapabilityGate

/-! ## Names -/

namespace Capability

variable {s : String} {c : Capability}

/-- A text with an equals sign names no capability. -/
theorem equals_not_mem (h : parse s = .ok c) : '=' ∉ s.toList := by
  intro equals
  have kept : '=' ∈ c.name.toList := by
    rw [parse_eq_ok h, Text.trim, String.toList_ofList]
    exact Text.mem_trimChars_of_not_blank equals (by decide)
  exact (plain_of_mem_name h kept).1 rfl

end Capability

namespace Grant

/-! ## Lists of patterns -/

/-- **`Listable p`** — the text can stand as a pattern in the short form. -/
structure Listable (p : String) : Prop where
  ne_empty : p ≠ ""
  no_comma : ',' ∉ p.toList
  trimmed : Text.IsTrimmed p.toList

theorem splitPatterns_joinStrings {ps : List String} (some : ps ≠ [])
    (listable : ∀ p ∈ ps, Listable p) : splitPatterns (Text.joinStrings "," ps).toList = ps := by
  have fields : Text.fields ',' (Text.joinStrings "," ps).toList = ps.map String.toList :=
    Text.fields_joinStrings some fun p member => (listable p member).no_comma
  have trimmed : (ps.map String.toList).map Text.trimChars = ps.map String.toList := by
    rw [List.map_map]
    exact List.map_congr_left fun p member =>
      Text.trimChars_eq_self_iff.mpr (listable p member).trimmed
  have kept : (ps.map String.toList).filter (!·.isEmpty) = ps.map String.toList := by
    rw [List.filter_eq_self]
    intro cs listed
    obtain ⟨p, member, rfl⟩ := List.mem_map.mp listed
    simpa using (listable p member).ne_empty
  rw [splitPatterns, fields, trimmed, kept, List.map_map]
  simp [Function.comp_def]

theorem listable_of_mem_splitPatterns {cs : List Char} {p : String}
    (h : p ∈ splitPatterns cs) : Listable p := by
  obtain ⟨text, kept, rfl⟩ := List.mem_map.mp h
  obtain ⟨trimmed, some⟩ := List.mem_filter.mp kept
  obtain ⟨field, member, rfl⟩ := List.mem_map.mp trimmed
  refine ⟨by simpa using some, ?_, ?_⟩
  · rw [String.toList_ofList]
    exact fun comma => Text.not_mem_of_mem_fields member (Text.mem_of_mem_trimChars comma)
  · rw [String.toList_ofList]
    exact Text.isTrimmed_trimChars field

/-! ## Reading what is written -/

/-- **`short name patterns`** — the short form: the name, and the patterns behind an equals sign, with
commas between them. -/
def short (name : String) : Option (List String) → String
  | none => name
  | some ps => name ++ "=" ++ Text.joinStrings "," ps

section Written

variable {name raw : String} {c : Capability} {g : Grant} {ps : List String}

theorem splitShort_none (absent : '=' ∉ name.toList) : splitShort name = (name, none) := by
  rw [splitShort, Text.splitFirst_eq_none_iff.mpr absent]

theorem splitShort_short (absent : '=' ∉ name.toList) (some : ps ≠ [])
    (listable : ∀ p ∈ ps, Listable p) :
    splitShort (short name (.some ps)) = (name, .some ps) := by
  have written : (short name (.some ps)).toList =
      name.toList ++ '=' :: (Text.joinStrings "," ps).toList := by
    simp [short]
  rw [splitShort, written, Text.splitFirst_append absent]
  dsimp only
  rw [splitPatterns_joinStrings some listable, String.ofList_toList]

variable [Engine]

/-- A text that splits into a name and patterns is read as the grant of these if it has a token. -/
theorem parse_of_splitShort {patterns : Option (List String)}
    (split : splitShort raw = (name, patterns)) (named : Capability.parse name = .ok c)
    (some : patterns ≠ some []) :
    parse raw = ((token ⟨c, patterns⟩).mapError Error.pattern).map fun _ => ⟨c, patterns⟩ := by
  simp only [parse, split, if_neg some, named]
  cases token ⟨c, patterns⟩ <;> rfl

theorem parse_name (named : Capability.parse name = .ok c) : parse name = .ok ⟨c, none⟩ :=
  parse_of_splitShort (splitShort_none (Capability.equals_not_mem named)) named (by simp)

theorem parse_short (named : Capability.parse name = .ok c) (some : ps ≠ [])
    (listable : ∀ p ∈ ps, Listable p) :
    parse (short name (.some ps)) =
      ((token ⟨c, .some ps⟩).mapError Error.pattern).map fun _ => ⟨c, .some ps⟩ :=
  parse_of_splitShort (splitShort_short (Capability.equals_not_mem named) some listable) named
    (by simpa using some)

theorem parse_short_eq_ok_iff (named : Capability.parse name = .ok c) (some : ps ≠ [])
    (listable : ∀ p ∈ ps, Listable p) :
    parse (short name (.some ps)) = .ok g ↔ g = ⟨c, .some ps⟩ ∧ ∀ p ∈ ps, Pattern.Compiles p := by
  have issued : (∃ t, token ⟨c, .some ps⟩ = .ok t) ↔ ∀ p ∈ ps, Pattern.Compiles p := by
    rw [exists_token_iff]
    constructor
    · intro accepted p member
      exact (accepted ps rfl p member).compiles
    · rintro compile texts ⟨⟩ p member
      exact ⟨(listable p member).ne_empty, compile p member⟩
  rw [parse_short named some listable, ← issued]
  cases token ⟨c, .some ps⟩ with
  | error e => simp [Except.mapError, Except.map]
  | ok t => simp [Except.mapError, Except.map, eq_comm]

/-- What is refused is a pattern that does not compile. -/
theorem parse_short_eq_error {err : Error} (named : Capability.parse name = .ok c) (some : ps ≠ [])
    (listable : ∀ p ∈ ps, Listable p) (h : parse (short name (.some ps)) = .error err) :
    ∃ p ∈ ps, ∃ reason, Engine.refusal? (Pattern.expressionOf p) = .some reason ∧
      err = .pattern (.refused p reason) := by
  rw [parse_short named some listable] at h
  cases issued : token ⟨c, .some ps⟩ with
  | ok t =>
    rw [issued] at h
    cases h
  | error cause =>
    rw [issued] at h
    cases h
    obtain ⟨texts, listed, p, member, refused⟩ := token_eq_error issued
    cases listed
    obtain ⟨reason, noProgram, rfl⟩ :=
      (Pattern.parse_eq_error_iff (listable p member).ne_empty).mp refused
    exact ⟨p, member, reason, noProgram, rfl⟩

/-- What is accepted is what the text splits into. -/
theorem parts_of_parse (h : parse raw = .ok g) :
    Capability.parse (splitShort raw).1 = .ok g.capability ∧ (splitShort raw).2 = g.patterns := by
  unfold parse at h
  dsimp only at h
  split at h
  · cases h
  · cases named : Capability.parse (splitShort raw).1 with
    | error e =>
      rw [named] at h
      cases h
    | ok capability =>
      rw [named] at h
      dsimp only at h
      split at h
      · cases h
      · cases h
        exact ⟨rfl, rfl⟩

theorem listable_of_parse (h : parse raw = .ok g) (listed : g.patterns = some ps) :
    ∀ p ∈ ps, Listable p := by
  have split := (parts_of_parse h).2.trans listed
  unfold splitShort at split
  split at split
  · cases split
  · cases split
    exact fun p member => listable_of_mem_splitPatterns member

/-- The grant that a text gives can be written itself. -/
theorem parse_short_of_parse (h : parse raw = .ok g) :
    parse (short g.capability.name g.patterns) = .ok g := by
  have named := Capability.parse_name (parts_of_parse h).1
  obtain ⟨issued, some, -⟩ := parse_eq_ok h
  cases listed : g.patterns with
  | none =>
    rw [short, parse_name named, ← listed]
  | some ps =>
    have some : ps ≠ [] := fun none => some (by rw [listed, none])
    refine (parse_short_eq_ok_iff named some (listable_of_parse h listed)).mpr ⟨?_, ?_⟩
    · rw [← listed]
    · exact fun p member => (exists_token_iff.mp issued ps listed p member).compiles

end Written

end Grant

/-! ## The short form -/

/-- **The short form of a grant is exact.** A name that is accepted gives a grant for everything, and
a name with patterns behind an equals sign gives a grant with these patterns and nothing else, if all
of them compile; otherwise it is refused for one that does not. Whatever else is accepted gives a
grant that can be written in this way: without an equals sign its token is for everything, and with
one its token is bounded by patterns, of which there is at least one. -/
theorem short_form_exact [Engine] :
    (∀ name c, Capability.parse name = .ok c →
      Grant.parse (Grant.short name none) = .ok ⟨c, none⟩ ∧
      ∀ ps, ps ≠ [] → (∀ p ∈ ps, Grant.Listable p) →
        (∀ g, Grant.parse (Grant.short name (some ps)) = .ok g ↔
          g = ⟨c, some ps⟩ ∧ ∀ p ∈ ps, Pattern.Compiles p) ∧
        ∀ err, Grant.parse (Grant.short name (some ps)) = .error err →
          ∃ p ∈ ps, ∃ reason, Engine.refusal? (Pattern.expressionOf p) = some reason ∧
            err = .pattern (.refused p reason)) ∧
    ∀ raw g, Grant.parse raw = .ok g →
      Grant.parse (Grant.short g.capability.name g.patterns) = .ok g ∧
      ∃ t, g.token = .ok t ∧
        (('=' ∉ raw.toList ∧ g.patterns = none ∧ t = Token.unrestricted g.capability) ∨
          ('=' ∈ raw.toList ∧ ∃ ps, g.patterns = some ps ∧ ps ≠ [] ∧
            (∀ p ∈ ps, Grant.Listable p) ∧ t.BoundedBy ps)) := by
  constructor
  · intro name c named
    refine ⟨Grant.parse_name named, fun ps some listable => ⟨?_, ?_⟩⟩
    · exact fun g => Grant.parse_short_eq_ok_iff named some listable
    · exact fun err => Grant.parse_short_eq_error named some listable
  · intro raw g parsed
    refine ⟨Grant.parse_short_of_parse parsed, ?_⟩
    obtain ⟨⟨t, issued⟩, some, equals⟩ := Grant.parse_eq_ok parsed
    refine ⟨t, issued, ?_⟩
    cases listed : g.patterns with
    | none =>
      refine .inl ⟨equals.mp listed, rfl, ?_⟩
      rw [Grant.token, listed] at issued
      exact (Except.ok.inj issued).symm
    | some ps =>
      have some : ps ≠ [] := fun none => some (by rw [listed, none])
      have sign : '=' ∈ raw.toList := by
        by_contra absent
        rw [equals.mpr absent] at listed
        cases listed
      exact .inr ⟨sign, ps, rfl, some, Grant.listable_of_parse parsed listed,
        (Grant.worth issued).2.2 ps listed some⟩

/-- A grant with two patterns, one of which has an equals sign, and one that is read from a text with
blanks and an empty place. -/
theorem short_form_exact_pages :
    Grant.parse "net.http=/pages?id=*,/img/**" =
      .ok ⟨⟨"net.http"⟩, some ["/pages?id=*", "/img/**"]⟩ ∧
    Grant.parse " net.http = /img/** ,," = .ok ⟨⟨"net.http"⟩, some ["/img/**"]⟩ ∧
    ∃ t, (⟨⟨"net.http"⟩, some ["/img/**"]⟩ : Grant).token = .ok t ∧ t.covers none = false := by
  have named : Capability.parse "net.http" = .ok ⟨"net.http"⟩ := by decide +kernel
  have read : Grant.parse " net.http = /img/** ,," =
      .ok ⟨⟨"net.http"⟩, some ["/img/**"]⟩ := by decide +kernel
  have listable : ∀ p ∈ ["/pages?id=*", "/img/**"], Grant.Listable p := by
    intro p member
    rcases List.mem_pair.mp member with rfl | rfl <;>
      exact ⟨by decide, by decide, Text.trimChars_eq_self_iff.mp (by decide)⟩
  have written : Grant.short "net.http" (some ["/pages?id=*", "/img/**"]) =
      "net.http=/pages?id=*,/img/**" := by decide +kernel
  obtain ⟨accepted, -⟩ := (short_form_exact.1 _ _ named).2 _ (by simp) listable
  have compile : ∀ p ∈ ["/pages?id=*", "/img/**"], Pattern.Compiles p := by
    intro p member
    rcases List.mem_pair.mp member with rfl | rfl <;> decide
  refine ⟨written ▸ (accepted _).mpr ⟨rfl, compile⟩, read, ?_⟩
  obtain ⟨-, t, issued, unrestricted | bounded⟩ := short_form_exact.2 _ _ read
  · cases unrestricted.2.1
  · obtain ⟨-, ps, -, -, -, bounded⟩ := bounded
    exact ⟨t, issued, bounded.notAll⟩

/-- The short form with a pattern that is too large is refused. -/
theorem large_grant_refused :
    Capability.parse "log" = .ok ⟨"log"⟩ ∧ Grant.Listable (questions 100000) ∧
      Grant.parse (Grant.short "log" (some [questions 100000])) =
        .error (.pattern (.refused (questions 100000) Engine.tooLarge)) := by
  have named : Capability.parse "log" = .ok ⟨"log"⟩ := by decide +kernel
  have marks : ∀ c ∈ (questions 100000).toList, c = '?' := by
    intro c member
    rw [questions, String.toList_ofList] at member
    exact List.eq_of_mem_replicate member
  have listable : Grant.Listable (questions 100000) := by
    refine ⟨questions_ne_empty, ?_, ?_⟩
    · intro comma
      exact absurd (marks _ comma) (by decide)
    · refine Text.isTrimmed_of_no_blank fun c member => ?_
      rw [marks c member]
      decide
  refine ⟨named, listable, ?_⟩
  have refused := (Pattern.parse_eq_error_iff questions_ne_empty).mpr ⟨_, refusal?_questions, rfl⟩
  have noToken : Grant.token ⟨⟨"log"⟩, some [questions 100000]⟩ =
      .error (.refused (questions 100000) Engine.tooLarge) := by
    simp only [Grant.token, Token.restricted, Scope.parse, List.mapM_cons, refused]
    rfl
  rw [Grant.parse_short named (List.cons_ne_nil _ _) (List.forall_mem_singleton.mpr listable),
    noToken]
  rfl

end CapabilityGate
