import CapabilityGate.Settings.Grant
import CapabilityGate.Proofs.Capability.Compiling
import CapabilityGate.Proofs.Settings.Reading

/-!
# What grants are worth

A grant stands for a token exactly if each of its patterns is accepted
(`Grant.exists_token_iff`). The patterns that were written down bound the token: it is good for the
resources that one of them matches, and not for all at once. That is so if there is one. A list
without patterns is worth what no list at all is worth, a token for everything: `Grant.worth`. The
short form refuses to write such a list, so there an equals sign always restricts
(`Grant.parse_eq_ok`).
-/
namespace CapabilityGate

/-! ## Lists of patterns -/

section Patterns

variable [Engine] {texts : List String}

theorem mapM_parse_eq_ok_iff {ps : List Pattern} :
    texts.mapM Pattern.parse = .ok ps ↔
      ps.map Pattern.text = texts ∧ ∀ text ∈ texts, Pattern.Compiles text := by
  rw [mapM_eq_ok_iff]
  simp only [Pattern.parse_eq_ok_iff]
  constructor
  · intro h
    induction h with
    | nil => exact ⟨rfl, by simp⟩
    | cons first _ ih =>
      refine ⟨by rw [List.map_cons, first.1, ih.1], ?_⟩
      exact List.forall_mem_cons.mpr ⟨first.2, ih.2⟩
  · rintro ⟨rfl, compiles⟩
    rw [List.forall₂_map_left_iff, List.forall₂_same]
    intro p member
    exact ⟨rfl, compiles _ (List.mem_map_of_mem member)⟩

end Patterns

theorem mem_distinct {α : Type} [DecidableEq α] {a : α} {as : List α} :
    a ∈ distinct as ↔ a ∈ as := by
  induction as with
  | nil => rfl
  | cons b as ih =>
    by_cases same : a = b
    · simp [distinct, same]
    · simp [distinct, same, ih]

/-! ## Tokens -/

namespace Token

/-- The token is good for every resource and for all of them at once. -/
def Boundless (t : Token) : Prop := ∀ resource, t.covers resource = true

/-- **`t.BoundedBy texts`** — the token is good for the resources that a pattern with one of these
texts matches, and not for all resources at once. -/
structure BoundedBy (t : Token) (texts : List String) : Prop where
  each : ∀ resource, t.covers (some resource) = true ↔
    ∃ p : Pattern, p.text ∈ texts ∧ p.matches resource = true
  notAll : t.covers none = false

variable {c : Capability} {t : Token} {ps : List Pattern} {texts : List String} {e : Pattern.Error}

/-- Repetitions make no difference to what a scope admits. -/
theorem boundedBy_ofPatterns (some : ps ≠ []) :
    BoundedBy ⟨c, .some (Scope.ofPatterns ps)⟩ (ps.map Pattern.text) := by
  have limited : (Scope.ofPatterns ps).isUnrestricted = false := by
    cases ps with
    | nil => exact absurd rfl some
    | cons p ps => rfl
  constructor
  · intro resource
    show ((Scope.ofPatterns ps).isUnrestricted || (distinct ps).any (·.matches resource)) = true ↔ _
    rw [limited, Bool.false_or, List.any_eq_true]
    constructor
    · rintro ⟨p, member, matching⟩
      exact ⟨p, List.mem_map_of_mem (mem_distinct.mp member), matching⟩
    · rintro ⟨p, member, matching⟩
      obtain ⟨q, listed, same⟩ := List.mem_map.mp member
      obtain rfl : q = p := by
        cases q
        cases p
        cases same
        rfl
      exact ⟨q, mem_distinct.mpr listed, matching⟩
  · exact limited

section Restricted

variable [Engine]

theorem restricted_eq_ok_iff :
    restricted c texts = .ok t ↔ ∃ ps, ps.map Pattern.text = texts ∧
      (∀ text ∈ texts, Pattern.Compiles text) ∧ t = ⟨c, some (Scope.ofPatterns ps)⟩ := by
  unfold restricted Scope.parse
  simp only [← and_assoc, ← mapM_parse_eq_ok_iff]
  cases texts.mapM Pattern.parse <;> simp [Except.map, eq_comm]

theorem restricted_eq_error (h : restricted c texts = .error e) :
    ∃ text ∈ texts, Pattern.parse text = .error e := by
  unfold restricted Scope.parse at h
  cases read : texts.mapM Pattern.parse with
  | ok ps =>
    rw [read] at h
    cases h
  | error e' =>
    rw [read] at h
    cases h
    exact mapM_eq_error read

end Restricted

end Token

namespace Grant

section Issuing

variable [Engine] {g : Grant} {t : Token}

/-- **What a token is worth**: it is bounded by the patterns of the grant if there are any, and for
everything if there are none, listed or not. -/
theorem worth (h : g.token = .ok t) :
    t.capability = g.capability ∧
      ((g.patterns = none ∨ g.patterns = some []) → t.Boundless) ∧
      ∀ texts, g.patterns = some texts → texts ≠ [] → t.BoundedBy texts := by
  unfold token at h
  split at h
  · rename_i absent
    cases h
    refine ⟨rfl, fun _ resource => ?_, fun texts listed => ?_⟩
    · cases resource <;> rfl
    · rw [absent] at listed
      cases listed
  · rename_i listed
    obtain ⟨ps, rfl, -, rfl⟩ := Token.restricted_eq_ok_iff.mp h
    refine ⟨rfl, ?_, ?_⟩
    · rintro (absent | empty)
      · rw [absent] at listed
        cases listed
      · rw [empty, Option.some.injEq] at listed
        obtain rfl := List.map_eq_nil_iff.mp listed.symm
        intro resource
        cases resource <;> rfl
    · intro texts same some
      rw [listed, Option.some.injEq] at same
      subst same
      exact Token.boundedBy_ofPatterns fun none => some (by rw [none]; rfl)

theorem token_eq_error {e : Pattern.Error} (h : g.token = .error e) :
    ∃ texts, g.patterns = some texts ∧ ∃ text ∈ texts, Pattern.parse text = .error e := by
  unfold token at h
  split at h
  · cases h
  · rename_i texts listed
    exact ⟨texts, listed, Token.restricted_eq_error h⟩

/-- A grant has a token exactly if all its patterns are accepted. -/
theorem exists_token_iff :
    (∃ t, g.token = .ok t) ↔
      ∀ texts, g.patterns = some texts → ∀ text ∈ texts, Pattern.Accepted text := by
  constructor
  · rintro ⟨t, h⟩ texts listed text member
    unfold token at h
    rw [listed] at h
    obtain ⟨ps, rfl, compiles, -⟩ := Token.restricted_eq_ok_iff.mp h
    obtain ⟨p, -, rfl⟩ := List.mem_map.mp member
    exact ⟨p.text_ne, compiles _ member⟩
  · intro accepted
    cases issued : g.token with
    | ok t => exact ⟨t, rfl⟩
    | error e =>
      obtain ⟨texts, listed, text, member, refused⟩ := token_eq_error issued
      obtain ⟨p, parsed⟩ := Pattern.exists_parse_iff.mpr (accepted texts listed text member)
      rw [refused] at parsed
      cases parsed

end Issuing

end Grant

/-! ## The short form -/

theorem Text.splitFirst_eq_none_iff {sep : Char} {cs : List Char} :
    Text.splitFirst sep cs = none ↔ sep ∉ cs := by
  induction cs with
  | nil => simp [Text.splitFirst]
  | cons c cs ih =>
    rw [Text.splitFirst, List.mem_cons, not_or]
    split
    · rename_i same
      simp [same]
    · rename_i other
      rw [Option.map_eq_none_iff, ih]
      exact (and_iff_right (Ne.symm other)).symm

namespace Grant

variable {raw : String} {g : Grant}

theorem splitShort_eq_none_iff : (splitShort raw).2 = none ↔ '=' ∉ raw.toList := by
  rw [← Text.splitFirst_eq_none_iff]
  unfold splitShort
  cases Text.splitFirst '=' raw.toList <;> simp

/-- What the short form gives has a token, and it has a list of patterns, which is not empty,
exactly if there is an equals sign. -/
theorem parse_eq_ok [Engine] (h : parse raw = .ok g) :
    (∃ t, g.token = .ok t) ∧ g.patterns ≠ some [] ∧ (g.patterns = none ↔ '=' ∉ raw.toList) := by
  unfold parse at h
  rw [← splitShort_eq_none_iff]
  dsimp only at h
  split at h
  · cases h
  · rename_i some
    cases read : Capability.parse (splitShort raw).1 with
    | error e =>
      rw [read] at h
      cases h
    | ok capability =>
      rw [read] at h
      dsimp only at h
      split at h
      · cases h
      · rename_i t issued
        cases h
        exact ⟨⟨t, issued⟩, some, Iff.rfl⟩

end Grant

end CapabilityGate
