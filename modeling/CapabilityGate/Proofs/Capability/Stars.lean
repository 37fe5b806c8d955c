import CapabilityGate.Proofs.Capability.Segments

/-!
# A star made into two

With a second star beside it, a single star of a pattern takes slashes as well, but no longer line
breaks. `Wildcard.Spells.widened` says that nothing else changes: the longer text spells the same
wildcards but for this one. What matches is then a question about the pieces that the other wildcards
leave in its place (`Wildcard.Leaves`): `widened_star_loses_iff` tells which matches are lost, and
`widened_star_loses_line_break` that there are such.
-/
namespace CapabilityGate

namespace Wildcard

variable {before after ws : List Wildcard} {cs s : List Char}

/-! ## Spelling -/

/-- The text of a wildcard in a pattern. -/
def text : Wildcard → List Char
  | literal c => [c]
  | one => ['?']
  | segment => ['*']
  | deep => ['*', '*']

/-- The text of wildcards in a pattern. -/
def spelling (ws : List Wildcard) : List Char := ws.flatMap text

theorem Spells.eq_spelling (h : Spells cs ws) : cs = spelling ws := by
  induction h with
  | done => rfl
  | deep _ ih | segment _ _ ih | one _ ih | literal _ _ _ ih =>
    rw [ih]
    rfl

/-- What follows a single star in a pattern does not begin with a star. -/
theorem head?_spelling_widened (h : (spelling (before ++ segment :: after)).head? ≠ some '*') :
    (spelling (before ++ deep :: after)).head? ≠ some '*' := by
  cases before with
  | nil => exact absurd rfl h
  | cons w before => cases w <;> exact h

/-- A second star beside a single one makes it a deep one, and nothing else. -/
theorem Spells.widened (h : Spells cs (before ++ Wildcard.segment :: after)) :
    Spells (spelling (before ++ Wildcard.deep :: after)) (before ++ Wildcard.deep :: after) := by
  induction before generalizing cs with
  | nil =>
    cases h with
    | segment _ rest =>
      have same := rest.eq_spelling
      subst same
      exact rest.deep
  | cons w before ih =>
    cases h with
    | deep rest => exact (ih rest).deep
    | segment single rest =>
      have same := rest.eq_spelling
      subst same
      exact (ih rest).segment (head?_spelling_widened single)
    | one rest => exact (ih rest).one
    | literal star question rest => exact (ih rest).literal star question

/-! ## What is left for one wildcard -/

/-- **`Leaves before after s piece`** — the wildcards before and after one cut the text in such a way
that this piece is left for it. -/
def Leaves (before after : List Wildcard) (s piece : List Char) : Prop :=
  ∃ left right, Cut Covers before left ∧ Cut Covers after right ∧ left ++ piece ++ right = s

theorem cut_iff_leaves (w : Wildcard) :
    Cut Covers (before ++ w :: after) s ↔
      ∃ piece, Leaves before after s piece ∧ w.Covers piece := by
  rw [Cut.append_iff]
  constructor
  · rintro ⟨left, whole, hleft, hwhole, rfl⟩
    obtain ⟨piece, right, here, hright, rfl⟩ := Cut.cons_iff.mp hwhole
    exact ⟨piece, ⟨left, right, hleft, hright, List.append_assoc _ _ _⟩, here⟩
  · rintro ⟨piece, ⟨left, right, hleft, hright, rfl⟩, here⟩
    exact ⟨left, piece ++ right, hleft, Cut.cons_iff.mpr ⟨piece, right, here, hright, rfl⟩,
      (List.append_assoc _ _ _).symm⟩

theorem Leaves.subset {piece : List Char} (h : Leaves before after s piece) : piece ⊆ s := by
  obtain ⟨left, right, -, -, rfl⟩ := h
  intro c member
  simp [member]

end Wildcard

open Wildcard

/-- The pattern that spells these wildcards with a deep one between them. -/
def Pattern.widened (before after : List Wildcard) : Pattern where
  text := String.ofList (spelling before ++ '*' :: '*' :: spelling after)
  text_ne := by simp [String.ofList_eq_empty_iff]

/-- **When a second star loses a match**: some cut leaves a piece without a slash for the star, and
every cut leaves one with a line break. Nothing else in the pattern is read differently, and on
resources without a line break no match is lost. -/
theorem widened_star_loses_iff (p : Pattern) (before after : List Wildcard)
    (star : p.wildcards = before ++ .segment :: after) :
    p.text.toList = spelling before ++ '*' :: spelling after ∧
    (Pattern.widened before after).text.toList = spelling before ++ '*' :: '*' :: spelling after ∧
    (Pattern.widened before after).wildcards = before ++ .deep :: after ∧
    ∀ resource : String,
      (p.matches resource = true ∧ (Pattern.widened before after).matches resource = false ↔
        (∃ piece, Leaves before after resource.toList piece ∧ '/' ∉ piece) ∧
          ∀ piece, Leaves before after resource.toList piece → '\n' ∈ piece) ∧
      ('\n' ∉ resource.toList → p.matches resource = true →
        (Pattern.widened before after).matches resource = true) := by
  have spelled : Spells p.text.toList (before ++ .segment :: after) := star ▸ spells_parse _
  have text : (Pattern.widened before after).text.toList =
      spelling before ++ '*' :: '*' :: spelling after := String.toList_ofList
  have wildcards : (Pattern.widened before after).wildcards = before ++ .deep :: after := by
    have longer : spelling (before ++ .deep :: after) =
        spelling before ++ '*' :: '*' :: spelling after := List.flatMap_append
    rw [Pattern.wildcards, text, ← longer]
    exact spelled.widened.parse_eq
  have narrow : ∀ resource, p.matches resource = true ↔
      ∃ piece, Leaves before after resource.toList piece ∧ '/' ∉ piece := fun resource => by
    rw [p.matches_iff_cut, star, cut_iff_leaves]
    rfl
  have wide : ∀ resource, (Pattern.widened before after).matches resource = true ↔
      ∃ piece, Leaves before after resource.toList piece ∧ '\n' ∉ piece := fun resource => by
    rw [Pattern.matches_iff_cut, wildcards, cut_iff_leaves]
    rfl
  refine ⟨?_, text, wildcards, fun resource => ⟨?_, fun oneLine matching => ?_⟩⟩
  · rw [spelled.eq_spelling]
    exact List.flatMap_append
  · rw [← Bool.not_eq_true, narrow, wide]
    simp
  · obtain ⟨piece, leaves, -⟩ := (narrow resource).mp matching
    exact (wide resource).mpr ⟨piece, leaves, fun member => oneLine (leaves.subset member)⟩

/-- The wildcards of a pattern for the directory of logs, up to its star. -/
def logsSlash : List Wildcard := "/logs/".toList.map .literal

/-- A log file is matched with one star and with two. -/
theorem widened_star_loses_iff_logs :
    let p : Pattern := ⟨"/logs/*", by decide⟩
    p.wildcards = logsSlash ++ .segment :: [] ∧ '\n' ∉ "/logs/a".toList ∧
      p.matches "/logs/a" = true ∧ (Pattern.widened logsSlash []).matches "/logs/a" = true := by
  intro p
  have star : p.wildcards = logsSlash ++ .segment :: [] := by decide
  have oneLine : '\n' ∉ "/logs/a".toList := by decide
  have matching : p.matches "/logs/a" = true := by decide
  exact ⟨star, oneLine, matching,
    ((widened_star_loses_iff p logsSlash [] star).2.2.2 "/logs/a").2 oneLine matching⟩

/-- A second star loses matches: a name with a line break in it is matched by one star, but not by
two. -/
theorem widened_star_loses_line_break :
    ¬ ∀ (p q : Pattern) (before after : List Wildcard), p.wildcards = before ++ .segment :: after →
      q.wildcards = before ++ .deep :: after →
        ∀ resource, p.matches resource = true → q.matches resource = true := by
  intro kept
  have lost := kept ⟨"/logs/*", by decide⟩ ⟨"/logs/**", by decide⟩ logsSlash [] (by decide)
    (by decide) "/logs/a\nb" (by decide)
  exact absurd lost (by decide)

end CapabilityGate
