import CapabilityGate.Capability.Token
import CapabilityGate.Proofs.Capability.Cutting
import CapabilityGate.Proofs.Text.Fields
import Mathlib.Data.List.Infix

/-!
# Patterns that stay within segments

A pattern in which no two stars stand side by side is *shallow*: none of its wildcards takes a slash,
so the slashes of a resource that it matches are exactly the slashes that it spells. Matching then
goes segment by segment. `Wildcard.cut_iff_fields` says this of texts, by induction along the fields
of the pattern; `shallow_patterns_match_segmentwise` says it of patterns and of the tokens that are
restricted by them.
-/
namespace CapabilityGate

theorem Cut.append_iff {α : Type} {form : α → List Char → Prop} {as bs : List α} {s : List Char} :
    Cut form (as ++ bs) s ↔
      ∃ first rest, Cut form as first ∧ Cut form bs rest ∧ first ++ rest = s := by
  induction as generalizing s with
  | nil => simp
  | cons a as ih =>
    rw [List.cons_append, cons_iff]
    constructor
    · rintro ⟨piece, whole, here, others, rfl⟩
      obtain ⟨first, rest, hfirst, hrest, rfl⟩ := ih.mp others
      exact ⟨piece ++ first, rest, cons_iff.mpr ⟨piece, first, here, hfirst, rfl⟩, hrest,
        List.append_assoc _ _ _⟩
    · rintro ⟨first, rest, hfirst, hrest, rfl⟩
      obtain ⟨piece, first, here, others, rfl⟩ := cons_iff.mp hfirst
      exact ⟨piece, first ++ rest, here, ih.mpr ⟨first, rest, others, hrest, rfl⟩,
        (List.append_assoc _ _ _).symm⟩

namespace Wildcard

variable {w : Wildcard} {cs ds s piece : List Char} {ws vs : List Wildcard}

/-! ## Slashes in patterns -/

/-- What stands before a slash and what stands behind it are spelled independently. -/
theorem Spells.append_slash (first : Spells cs ws) (rest : Spells ds vs) :
    Spells (cs ++ '/' :: ds) (ws ++ Wildcard.literal '/' :: vs) := by
  have slash : Spells ('/' :: ds) (Wildcard.literal '/' :: vs) :=
    .literal (by decide) (by decide) rest
  induction first with
  | done => exact slash
  | deep _ ih => exact ih.deep
  | segment single _ ih =>
    rename_i cs ws _
    refine ih.segment ?_
    -- The star is single in front of the slash, too.
    cases cs with
    | nil => simp
    | cons c cs => exact single
  | one _ ih => exact ih.one
  | literal star question _ ih => exact ih.literal star question

theorem parse_append_slash (cs ds : List Char) :
    parse (cs ++ '/' :: ds) = parse cs ++ literal '/' :: parse ds :=
  ((spells_parse cs).append_slash (spells_parse ds)).parse_eq

/-- Only two stars side by side go beyond a segment. -/
theorem Spells.stars_of_mem (h : Spells cs ws) (member : Wildcard.deep ∈ ws) :
    ['*', '*'] <:+: cs := by
  induction h with
  | done => cases member
  | deep _ _ => exact ⟨[], _, rfl⟩
  | segment _ _ ih | one _ ih | literal _ _ _ ih =>
    rcases List.mem_cons.mp member with same | later
    · cases same
    · exact List.infix_cons (ih later)

/-- A slash is spelled by itself. -/
theorem Spells.slash_of_mem (h : Spells cs ws) (member : Wildcard.literal '/' ∈ ws) : '/' ∈ cs := by
  induction h with
  | done => cases member
  | deep _ ih =>
    rcases List.mem_cons.mp member with same | later
    · cases same
    · exact List.mem_cons_of_mem _ (List.mem_cons_of_mem _ (ih later))
  | segment _ _ ih | one _ ih =>
    rcases List.mem_cons.mp member with same | later
    · cases same
    · exact List.mem_cons_of_mem _ (ih later)
  | literal _ _ _ ih =>
    rcases List.mem_cons.mp member with same | later
    · cases same
      exact List.mem_cons_self
    · exact List.mem_cons_of_mem _ (ih later)

/-! ## Slashes in what is matched -/

theorem Covers.no_slash (h : w.Covers piece) (shallow : w ≠ deep) (other : w ≠ literal '/') :
    '/' ∉ piece := by
  cases w with
  | literal d =>
    subst h
    intro slash
    exact other (congrArg literal (List.mem_singleton.mp slash).symm)
  | one =>
    obtain ⟨c, different, rfl⟩ := h
    intro slash
    exact different (List.mem_singleton.mp slash).symm
  | segment => exact h
  | deep => exact absurd rfl shallow

/-- What is cut along one segment of a shallow pattern is within one segment. -/
theorem no_slash_of_cut (shallow : deep ∉ ws) (oneSegment : literal '/' ∉ ws)
    (h : Cut Covers ws s) : '/' ∉ s := by
  induction ws generalizing s with
  | nil =>
    rw [Cut.nil_iff] at h
    subst h
    exact List.not_mem_nil
  | cons w ws ih =>
    rw [List.mem_cons, not_or] at shallow oneSegment
    obtain ⟨piece, rest, here, others, rfl⟩ := Cut.cons_iff.mp h
    have first := here.no_slash (Ne.symm shallow.1) (Ne.symm oneSegment.1)
    have later := ih shallow.2 oneSegment.2 others
    intro slash
    rcases List.mem_append.mp slash with slash | slash
    · exact first slash
    · exact later slash

/-! ## Segment by segment -/

/-- A pattern that begins with one segment and a slash cuts what begins with a piece for the segment
and a slash. -/
theorem cut_append_slash :
    Cut Covers (parse (cs ++ '/' :: ds)) s ↔
      ∃ first rest, Cut Covers (parse cs) first ∧ Cut Covers (parse ds) rest ∧
        first ++ '/' :: rest = s := by
  rw [parse_append_slash, Cut.append_iff]
  constructor
  · rintro ⟨first, whole, hfirst, hwhole, rfl⟩
    obtain ⟨piece, rest, rfl, hrest, rfl⟩ := Cut.cons_iff.mp hwhole
    exact ⟨first, rest, hfirst, hrest, rfl⟩
  · rintro ⟨first, rest, hfirst, hrest, rfl⟩
    exact ⟨first, '/' :: rest, hfirst, Cut.cons_iff.mpr ⟨['/'], rest, rfl, hrest, rfl⟩, rfl⟩

/-- **A shallow pattern cuts a text exactly if its segments cut the segments of the text.** -/
theorem cut_iff_fields (cs s : List Char) (shallow : deep ∉ parse cs) :
    Cut Covers (parse cs) s ↔
      List.Forall₂ (fun segment piece => Cut Covers (parse segment) piece)
        (Text.fields '/' cs) (Text.fields '/' s) := by
  -- Along the segments of the pattern; each has a piece without a slash, so it ends where the
  -- segment of the text ends.
  induction cs using Text.fieldwise '/' generalizing s with
  | single cs absent =>
    have oneSegment : literal '/' ∉ parse cs := fun h => absent ((spells_parse cs).slash_of_mem h)
    rw [Text.fields_of_not_mem absent]
    rcases Text.not_mem_or_append '/' s with within | ⟨first, rest, within, rfl⟩
    · rw [Text.fields_of_not_mem within]
      simp
    · rw [Text.fields_append within]
      constructor
      · intro h
        exact absurd (by simp) (no_slash_of_cut shallow oneSegment h)
      · intro h
        cases h with
        | cons _ others =>
          exact absurd (List.forall₂_nil_left_iff.mp others) (Text.fields_ne_nil _ _)
  | further cs ds absent ih =>
    rw [parse_append_slash, List.mem_append, List.mem_cons, not_or, not_or] at shallow
    obtain ⟨shallowFirst, -, shallowRest⟩ := shallow
    have oneSegment : literal '/' ∉ parse cs := fun h => absent ((spells_parse cs).slash_of_mem h)
    rw [Text.fields_append absent, cut_append_slash]
    rcases Text.not_mem_or_append '/' s with within | ⟨first, rest, within, rfl⟩
    · rw [Text.fields_of_not_mem within]
      constructor
      · rintro ⟨first, rest, -, -, rfl⟩
        exact absurd (by simp) within
      · intro h
        cases h with
        | cons _ others =>
          exact absurd (List.forall₂_nil_right_iff.mp others) (Text.fields_ne_nil _ _)
    · rw [Text.fields_append within, List.forall₂_cons, ← ih rest shallowRest]
      constructor
      · rintro ⟨piece, later, hpiece, hlater, same⟩
        have apart := congrArg (Text.fields '/') same
        rw [Text.fields_append (no_slash_of_cut shallowFirst oneSegment hpiece),
          Text.fields_append within] at apart
        obtain rfl : piece = first := (List.cons.inj apart).1
        obtain rfl : later = rest := (List.cons.inj (List.append_cancel_left same)).2
        exact ⟨hpiece, hlater⟩
      · rintro ⟨hfirst, hrest⟩
        exact ⟨first, rest, hfirst, hrest, rfl⟩

end Wildcard

/-! ## Shallow patterns -/

/-- **`segmentsOf s`** — the texts between the slashes. -/
def segmentsOf (s : String) : List String := (Text.fields '/' s.toList).map String.ofList

theorem length_segmentsOf (s : String) : (segmentsOf s).length = s.toList.count '/' + 1 := by
  rw [segmentsOf, List.length_map, Text.length_fields]

/-- A segment of a pattern matches as a pattern does; an empty one matches the empty text only. -/
def SegmentMatches (segment piece : String) : Prop :=
  if h : segment = "" then piece = "" else (Pattern.mk segment h).matches piece = true

theorem segmentMatches_iff (segment piece : String) :
    SegmentMatches segment piece ↔
      Cut Wildcard.Covers (Wildcard.parse segment.toList) piece.toList := by
  unfold SegmentMatches
  by_cases empty : segment = ""
  · rw [dif_pos empty, empty]
    show piece = "" ↔ Cut Wildcard.Covers [] piece.toList
    rw [Cut.nil_iff, String.toList_eq_nil_iff]
  · rw [dif_neg empty]
    exact Pattern.matches_iff_cut _ _

namespace Pattern

/-- **`p.IsShallow`** — no two stars stand side by side in the pattern. -/
def IsShallow (p : Pattern) : Prop := ¬ ['*', '*'] <:+: p.text.toList

variable {p : Pattern}

theorem IsShallow.deep_not_mem (shallow : p.IsShallow) : Wildcard.deep ∉ p.wildcards :=
  fun member => shallow ((Wildcard.spells_parse _).stars_of_mem member)

theorem IsShallow.matches_iff (shallow : p.IsShallow) (resource : String) :
    p.matches resource = true ↔
      List.Forall₂ SegmentMatches (segmentsOf p.text) (segmentsOf resource) := by
  rw [p.matches_iff_cut]
  show Cut Wildcard.Covers (Wildcard.parse p.text.toList) resource.toList ↔ _
  rw [Wildcard.cut_iff_fields _ _ shallow.deep_not_mem, segmentsOf, segmentsOf,
    List.forall₂_map_left_iff, List.forall₂_map_right_iff]
  simp only [segmentMatches_iff, String.toList_ofList]

/-- A resource that a shallow pattern matches has as many slashes as the pattern. -/
theorem IsShallow.count_slash (shallow : p.IsShallow) {resource : String}
    (h : p.matches resource = true) : resource.toList.count '/' = p.text.toList.count '/' := by
  have same := ((shallow.matches_iff resource).mp h).length_eq
  rw [length_segmentsOf, length_segmentsOf] at same
  omega

end Pattern

/-- **Shallow patterns match segment by segment.** Cut at the slashes, pattern and resource have as
many segments, and each segment of the pattern matches the one at its place. So what a token covers
that is restricted by shallow patterns has as many slashes as the pattern that matches it. -/
theorem shallow_patterns_match_segmentwise :
    (∀ p : Pattern, p.IsShallow → ∀ resource,
      (p.matches resource = true ↔
        (segmentsOf p.text).length = (segmentsOf resource).length ∧
          ∀ pair ∈ (segmentsOf p.text).zip (segmentsOf resource), SegmentMatches pair.1 pair.2)) ∧
    ∀ (t : Token) (s : Scope), t.scope = some s → s.patterns ≠ [] →
      (∀ p ∈ s.patterns, p.IsShallow) → ∀ resource, t.covers (some resource) = true →
        ∃ p ∈ s.patterns, p.matches resource = true ∧
          resource.toList.count '/' = p.text.toList.count '/' := by
  constructor
  · intro p shallow resource
    rw [shallow.matches_iff, List.forall₂_iff_zip]
    simp only [Prod.forall]
  · intro t s hscope restricted shallow resource covers
    have limited : s.isUnrestricted = false := by
      simpa [Scope.isUnrestricted] using restricted
    simp only [Token.covers, hscope, Scope.admits, limited, Bool.false_or,
      List.any_eq_true] at covers
    obtain ⟨p, member, matching⟩ := covers
    exact ⟨p, member, matching, (shallow p member).count_slash matching⟩

/-- The files of one directory. -/
def dataFiles : Pattern := ⟨"/data/*", by decide⟩

/-- A token for the files of one directory covers them, and a file in a directory below has a segment
too many. -/
theorem shallow_patterns_match_segmentwise_data :
    let t : Token := ⟨⟨"file.read"⟩, some ⟨[dataFiles]⟩⟩
    dataFiles.IsShallow ∧ dataFiles.matches "/data/sub/x.txt" = false ∧
      t.covers (some "/data/x.txt") = true ∧
      ∃ p ∈ [dataFiles], p.matches "/data/x.txt" = true ∧
        "/data/x.txt".toList.count '/' = p.text.toList.count '/' := by
  intro t
  have shallow : dataFiles.IsShallow := by
    unfold Pattern.IsShallow
    decide
  have covered : t.covers (some "/data/x.txt") = true := by decide
  refine ⟨shallow, ?_, covered, ?_⟩
  · rw [← Bool.not_eq_true, shallow_patterns_match_segmentwise.1 dataFiles shallow]
    intro segments
    exact absurd segments.1 (by decide)
  · exact shallow_patterns_match_segmentwise.2 t ⟨[dataFiles]⟩ rfl (List.cons_ne_nil _ _)
      (List.forall_mem_singleton.mpr shallow) _ covered

end CapabilityGate
