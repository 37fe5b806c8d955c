import CapabilityGate.Capability.Pattern
import Mathlib.Data.List.Forall2

/-!
# Texts cut along a pattern

What a pattern means, without an algorithm: a resource matches if it can be cut into consecutive
pieces, one per wildcard, each of the form that its wildcard stands for (`Wildcard.Covers`). Which
wildcards a pattern text consists of is said by `Wildcard.Spells`, one rule per kind.

`Pattern.matches` fills a table instead. Its entries are right because cutting obeys the equations
that the table is filled by: `Wildcard.cut_cons_nil` and `Wildcard.cut_cons_cons`.
-/
namespace CapabilityGate

/-! ## Cutting -/

/-- **`Cut form as s`** — the text is one piece for each element, in order and of the form that goes
with the element. -/
def Cut {α : Type} (form : α → List Char → Prop) (as : List α) (s : List Char) : Prop :=
  ∃ pieces, List.Forall₂ form as pieces ∧ pieces.flatten = s

namespace Cut

variable {α β : Type} {form : α → List Char → Prop} {as : List α} {a : α} {s : List Char}

@[simp]
theorem nil_iff : Cut form [] s ↔ s = [] := by
  simp [Cut, eq_comm]

theorem cons_iff :
    Cut form (a :: as) s ↔ ∃ piece rest, form a piece ∧ Cut form as rest ∧ piece ++ rest = s := by
  constructor
  · rintro ⟨pieces, h, rfl⟩
    obtain ⟨piece, pieces, first, others, rfl⟩ := List.forall₂_cons_left_iff.mp h
    exact ⟨piece, pieces.flatten, first, ⟨pieces, others, rfl⟩, rfl⟩
  · rintro ⟨piece, rest, first, ⟨pieces, others, rfl⟩, rfl⟩
    exact ⟨piece :: pieces, .cons first others, rfl⟩

theorem congr {form' : α → List Char → Prop} (h : ∀ a piece, form a piece ↔ form' a piece) :
    Cut form as s ↔ Cut form' as s := by
  have same : form = form' := funext₂ fun a piece => propext (h a piece)
  rw [same]

theorem map_iff {f : β → α} {bs : List β} :
    Cut form (bs.map f) s ↔ Cut (fun b => form (f b)) bs s := by
  simp [Cut, List.forall₂_map_left_iff]

end Cut

/-! ## Wildcards -/

namespace Wildcard

/-- **`w.Covers piece`** — what a wildcard stands for. -/
def Covers : Wildcard → List Char → Prop
  | literal c, piece => piece = [c]
  | one, piece => ∃ c, c ≠ '/' ∧ piece = [c]
  | segment, piece => '/' ∉ piece
  | deep, piece => '\n' ∉ piece

/-- **`Spells cs ws`** — a text read from left to right, stars in pairs as far as possible. -/
inductive Spells : List Char → List Wildcard → Prop where
  | done : Spells [] []
  | deep {cs ws} : Spells cs ws → Spells ('*' :: '*' :: cs) (deep :: ws)
  | segment {cs ws} : cs.head? ≠ some '*' → Spells cs ws → Spells ('*' :: cs) (segment :: ws)
  | one {cs ws} : Spells cs ws → Spells ('?' :: cs) (one :: ws)
  | literal {c cs ws} : c ≠ '*' → c ≠ '?' → Spells cs ws → Spells (c :: cs) (literal c :: ws)

theorem Spells.parse_eq {cs : List Char} {ws : List Wildcard} (h : Spells cs ws) :
    parse cs = ws := by
  induction h with
  | done => rfl
  | deep _ ih => rw [parse, ih]
  | segment single _ ih =>
    rw [parse, ih]
    rintro cs rfl
    exact single rfl
  | one _ ih => rw [parse, ih]
  | literal star question _ ih =>
    rw [parse, ih]
    · rintro cs rfl
      exact absurd rfl star
    · exact star
    · exact question

theorem spells_parse (cs : List Char) : Spells cs (parse cs) := by
  fun_induction parse cs with
  | case1 cs ih => exact ih.deep
  | case2 cs single ih =>
    refine ih.segment fun star => ?_
    cases cs with
    | nil => cases star
    | cons c cs =>
      cases star
      exact single cs rfl
  | case3 cs ih => exact ih.one
  | case4 c cs pair star question ih => exact ih.literal star question
  | case5 => exact .done

/-- **A text spells exactly one list of wildcards**, the one that is read. -/
theorem spells_iff {cs : List Char} {ws : List Wildcard} : Spells cs ws ↔ ws = parse cs := by
  refine ⟨fun h => h.parse_eq.symm, ?_⟩
  rintro rfl
  exact spells_parse cs

variable {w : Wildcard} {ws : List Wildcard} {c : Char} {s p : List Char}

theorem covers_nil : w.Covers [] ↔ w.isRun = true := by
  cases w <;> simp [Covers, isRun]

theorem covers_cons :
    w.Covers (c :: p) ↔ w.takes c = true ∧ if w.isRun then w.Covers p else p = [] := by
  cases w with
  | literal d => simp [Covers, isRun, takes]
  | one => simp [Covers, isRun, takes]
  | segment => simp [Covers, isRun, takes, @eq_comm _ '/' c]
  | deep => simp [Covers, isRun, takes, @eq_comm _ '\n' c]

/-! ## The equations of the table -/

theorem cut_cons_nil : Cut Covers (w :: ws) [] ↔ w.isRun = true ∧ Cut Covers ws [] := by
  simp [Cut.cons_iff, ← covers_nil]

/-- A run ends here, or takes one character more; any other wildcard takes one character. -/
theorem cut_cons_cons :
    Cut Covers (w :: ws) (c :: s) ↔
      if w.isRun then Cut Covers ws (c :: s) ∨ (w.takes c = true ∧ Cut Covers (w :: ws) s)
      else w.takes c = true ∧ Cut Covers ws s := by
  constructor
  · rw [Cut.cons_iff]
    rintro ⟨piece, rest, covers, others, whole⟩
    cases piece with
    | nil =>
      obtain rfl : rest = c :: s := whole
      rw [if_pos (covers_nil.mp covers)]
      exact .inl others
    | cons d piece =>
      obtain ⟨rfl, rfl⟩ := List.cons.inj whole
      obtain ⟨takes, more⟩ := covers_cons.mp covers
      split
      · rename_i run
        rw [if_pos run] at more
        exact .inr ⟨takes, Cut.cons_iff.mpr ⟨piece, rest, more, others, rfl⟩⟩
      · rename_i single
        rw [if_neg single] at more
        rw [more]
        exact ⟨takes, others⟩
  · split
    · rename_i run
      rintro (here | ⟨takes, later⟩)
      · exact Cut.cons_iff.mpr ⟨[], c :: s, covers_nil.mpr run, here, rfl⟩
      · obtain ⟨piece, rest, covers, others, rfl⟩ := Cut.cons_iff.mp later
        have longer : w.Covers (c :: piece) := covers_cons.mpr ⟨takes, by rwa [if_pos run]⟩
        exact Cut.cons_iff.mpr ⟨c :: piece, rest, longer, others, rfl⟩
    · rename_i single
      rintro ⟨takes, others⟩
      have covers : w.Covers [c] := covers_cons.mpr ⟨takes, by rw [if_neg single]⟩
      exact Cut.cons_iff.mpr ⟨[c], s, covers, others, rfl⟩

/-! ## The table -/

/-- **`Tells P s row`** — a row of the table says of every suffix, longest first, whether `P` holds
of it. -/
def Tells (P : List Char → Prop) : List Char → List Bool → Prop
  | [], row => ∃ b, row = [b] ∧ (b = true ↔ P [])
  | c :: s, row => ∃ b rest, row = b :: rest ∧ (b = true ↔ P (c :: s)) ∧ Tells P s rest

theorem Tells.headD {P : List Char → Prop} {row : List Bool} (h : Tells P s row) :
    row.headD false = true ↔ P s := by
  cases s with
  | nil =>
    obtain ⟨b, rfl, here⟩ := h
    exact here
  | cons c s =>
    obtain ⟨b, rest, rfl, here, -⟩ := h
    exact here

theorem tells_row {later : List Bool} (h : Tells (Cut Covers ws) s later) :
    Tells (Cut Covers (w :: ws)) s (w.row s later) := by
  induction s generalizing later with
  | nil =>
    refine ⟨_, rfl, ?_⟩
    rw [cut_cons_nil, ← h.headD, Bool.and_eq_true]
  | cons c s ih =>
    obtain ⟨b, rest, rfl, here, suffixes⟩ := h
    refine ⟨_, _, rfl, ?_, ih suffixes⟩
    rw [cut_cons_cons, ← here, ← (ih suffixes).headD, ← suffixes.headD]
    split <;> simp

theorem tells_rows (ws : List Wildcard) (s : List Char) : Tells (Cut Covers ws) s (rows ws s) := by
  induction ws with
  | nil =>
    rw [rows]
    induction s with
    | nil => exact ⟨true, rfl, by simp⟩
    | cons c s ih => exact ⟨false, _, rfl, by simp, ih⟩
  | cons w ws ih => exact tells_row ih

end Wildcard

/-- **A pattern matches what can be cut along it.** -/
theorem Pattern.matches_iff_cut (p : Pattern) (resource : String) :
    p.matches resource = true ↔ Cut Wildcard.Covers p.wildcards resource.toList :=
  (Wildcard.tells_rows p.wildcards resource.toList).headD

end CapabilityGate
