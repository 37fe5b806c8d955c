import CapabilityGate.Text.Search
import Mathlib.Data.List.Infix

/-!
# The occurrences of one text in another

Occurrences are taken from left to right and without overlap, and `Text.Cuts` says so: a text without
an occurrence is one piece, and otherwise the first piece is what stands before the earliest
occurrence, and the others are the pieces of what stands behind it. Induction goes along the
occurrences (`Text.occurrencewise`).

`Text.pieces` cuts in this way (`Text.cuts_pieces`). The other questions about occurrences are scans
of their own, and all of them agree with the pieces: what replaces the occurrences stands between
them (`Text.replaceAll_eq_joinWith`), there are several pieces exactly if there is an occurrence
(`Cuts.several_iff`), and the first of them is empty exactly if the text begins with one
(`Cuts.starts_iff`).
-/
namespace CapabilityGate.Text

variable {sep new s first rest : List Char}

/-! ## The earliest occurrence -/

/-- **`Earliest sep first`** — when `sep` comes behind `first`, no occurrence of it begins earlier. -/
def Earliest (sep first : List Char) : Prop := ¬ sep <:+: first ++ sep.dropLast

/-- A text that is not empty is too long for what is left of it without its last character. -/
theorem earliest_nil (some : sep ≠ []) : Earliest sep [] := by
  intro occurs
  have shorter := occurs.length_le
  have positive := List.length_pos_iff.mpr some
  rw [List.nil_append, List.length_dropLast] at shorter
  omega

theorem Earliest.tail {c : Char} (h : Earliest sep (c :: first)) : Earliest sep first :=
  fun occurs => h (List.infix_cons occurs)

/-- What begins before its earliest occurrence would end before the end of it. -/
theorem Earliest.not_prefix {c : Char} (h : Earliest sep (c :: first)) (rest : List Char) :
    ¬ sep <+: c :: first ++ (sep ++ rest) := by
  intro begins
  have inside : c :: first ++ sep.dropLast <+: c :: first ++ (sep ++ rest) := by
    refine List.prefix_append_right_inj _ |>.mpr ?_
    exact (List.dropLast_prefix sep).trans (List.prefix_append sep rest)
  have room : sep.length ≤ (c :: first ++ sep.dropLast).length := by
    rw [List.length_append, List.length_cons, List.length_dropLast]
    omega
  exact h (List.prefix_of_prefix_length_le begins inside room).isInfix

theorem exists_earliest (some : sep ≠ []) (h : sep <:+: s) :
    ∃ first rest, Earliest sep first ∧ first ++ (sep ++ rest) = s := by
  induction s with
  | nil => exact absurd (List.infix_nil.mp h) some
  | cons c cs ih =>
    by_cases begins : sep <+: c :: cs
    · obtain ⟨rest, split⟩ := begins
      exact ⟨[], rest, earliest_nil some, split⟩
    · obtain ⟨first, rest, earliest, rfl⟩ := ih ((List.infix_cons_iff.mp h).resolve_left begins)
      refine ⟨c :: first, rest, ?_, rfl⟩
      intro occurs
      rcases List.infix_cons_iff.mp occurs with start | later
      · refine begins (start.trans ?_)
        refine List.prefix_append_right_inj (c :: first) |>.mpr ?_
        exact (List.dropLast_prefix sep).trans (List.prefix_append sep rest)
      · exact earliest later

/-- **Induction along the occurrences in a text**: on a text without any, and on what stands before an
earliest occurrence in front of what stands behind it. -/
theorem occurrencewise (some : sep ≠ []) {P : List Char → Prop}
    (absent : ∀ s, ¬ sep <:+: s → P s)
    (further : ∀ first rest, Earliest sep first → P rest → P (first ++ (sep ++ rest)))
    (s : List Char) : P s := by
  -- On the length: the text behind the earliest occurrence is shorter.
  induction h : s.length using Nat.strongRecOn generalizing s with
  | ind n ih =>
    by_cases occurs : sep <:+: s
    · obtain ⟨first, rest, earliest, rfl⟩ := exists_earliest some occurs
      refine further first rest earliest (ih rest.length ?_ rest rfl)
      have positive := List.length_pos_iff.mpr some
      rw [List.length_append, List.length_append] at h
      omega
    · exact absent s occurs

/-! ## Pieces -/

/-- **`Cuts sep s ps`** — cut from left to right at the occurrences of `sep`, the text `s` comes to the
pieces `ps`. -/
inductive Cuts (sep : List Char) : List Char → List (List Char) → Prop
  | last {s : List Char} (absent : ¬ sep <:+: s) : Cuts sep s [s]
  | next {first rest : List Char} {ps : List (List Char)} (earliest : Earliest sep first)
      (others : Cuts sep rest ps) : Cuts sep (first ++ (sep ++ rest)) (first :: ps)

theorem piecesFrom_eq_drop (sep : List Char) (n : Nat) (s : List Char) :
    piecesFrom sep n s = pieces sep (s.drop n) := by
  induction s generalizing n with
  | nil => cases n <;> rfl
  | cons c cs ih =>
    cases n with
    | zero => rfl
    | succ n => exact ih n

theorem isPrefixOf_eq_false (h : ¬ sep <+: s) : sep.isPrefixOf s = false :=
  Bool.eq_false_iff.mpr fun begins => h (List.isPrefixOf_iff_prefix.mp begins)

theorem pieces_of_absent (absent : ¬ sep <:+: s) : pieces sep s = [s] := by
  induction s with
  | nil => rfl
  | cons c cs ih =>
    rw [List.infix_cons_iff, not_or] at absent
    have other : sep.isPrefixOf (c :: cs) = false :=
      isPrefixOf_eq_false absent.1
    show (if sep.isPrefixOf (c :: cs) then _ else consFirst c (pieces sep cs)) = _
    rw [other, ih absent.2]
    rfl

/-- The text before the earliest occurrence is the first piece. -/
theorem pieces_append (some : sep ≠ []) (earliest : Earliest sep first) (rest : List Char) :
    pieces sep (first ++ (sep ++ rest)) = first :: pieces sep rest := by
  induction first with
  | nil =>
    cases sep with
    | nil => exact absurd rfl some
    | cons d ds =>
      have begins : (d :: ds).isPrefixOf (d :: (ds ++ rest)) = true :=
        List.isPrefixOf_iff_prefix.mpr (List.prefix_append (d :: ds) rest)
      show (if (d :: ds).isPrefixOf (d :: (ds ++ rest)) then
        [] :: piecesFrom (d :: ds) ds.length (ds ++ rest) else _) = _
      rw [begins, if_pos rfl, piecesFrom_eq_drop, List.drop_left]
  | cons c first ih =>
    have other : sep.isPrefixOf (c :: (first ++ (sep ++ rest))) = false :=
      isPrefixOf_eq_false (earliest.not_prefix rest)
    show (if sep.isPrefixOf (c :: (first ++ (sep ++ rest))) then _
      else consFirst c (pieces sep (first ++ (sep ++ rest)))) = _
    rw [other, ih earliest.tail]
    rfl

theorem cuts_pieces (some : sep ≠ []) (s : List Char) : Cuts sep s (pieces sep s) := by
  induction s using occurrencewise some with
  | absent s absent =>
    rw [pieces_of_absent absent]
    exact .last absent
  | further first rest earliest ih =>
    rw [pieces_append some earliest]
    exact .next earliest ih

namespace Cuts

variable {ps : List (List Char)}

theorem ne_nil (h : Cuts sep s ps) : ps ≠ [] := by
  cases h <;> exact List.cons_ne_nil _ _

theorem absent_of_mem (h : Cuts sep s ps) {p : List Char} (member : p ∈ ps) : ¬ sep <:+: p := by
  induction h with
  | last absent =>
    obtain rfl := List.mem_singleton.mp member
    exact absent
  | next earliest _ ih =>
    rcases List.mem_cons.mp member with rfl | later
    · exact fun occurs => earliest (occurs.trans (List.prefix_append _ _).isInfix)
    · exact ih later

theorem joinWith_eq (h : Cuts sep s ps) : joinWith sep ps = s := by
  induction h with
  | last _ => rfl
  | @next first rest ps _ others ih =>
    cases ps with
    | nil => exact absurd rfl others.ne_nil
    | cons p ps => rw [joinWith, ih, List.append_assoc]

/-- There are several pieces exactly if there is an occurrence. -/
theorem several_iff (h : Cuts sep s ps) : 1 < ps.length ↔ sep <:+: s := by
  cases h with
  | last absent => exact iff_of_false (Nat.lt_irrefl 1) absent
  | @next first rest ps _ others =>
    have positive := List.length_pos_iff.mpr others.ne_nil
    refine iff_of_true ?_ ?_
    · rw [List.length_cons]
      omega
    · exact List.append_assoc first sep rest ▸ List.infix_append first sep rest

/-- There are several pieces and nothing stands before the first occurrence, exactly if the text
begins with it. -/
theorem starts_iff (h : Cuts sep s ps) : 1 < ps.length ∧ ps.head? = some [] ↔ sep <+: s := by
  rw [h.several_iff]
  cases h with
  | last absent => exact iff_of_false (fun h => absent h.1) fun begins => absent begins.isInfix
  | @next first rest ps earliest others =>
    cases first with
    | nil =>
      have begins : sep <+: sep ++ rest := List.prefix_append sep rest
      exact iff_of_true ⟨begins.isInfix, rfl⟩ begins
    | cons c first =>
      refine iff_of_false ?_ (earliest.not_prefix rest)
      rintro ⟨-, empty⟩
      cases empty

end Cuts

/-! ## The other scans -/

/-- What replaces the occurrences stands between the pieces. -/
theorem replaceFrom_eq_joinWith (old new : List Char) (n : Nat) (s : List Char) :
    replaceFrom old new n s = joinWith new (piecesFrom old n s) := by
  induction s generalizing n with
  | nil => cases n <;> rfl
  | cons c cs ih =>
    cases n with
    | succ n => exact ih n
    | zero =>
      simp only [replaceFrom, piecesFrom]
      split
      · rw [ih, joinWith_nil_cons new (piecesFrom_ne_nil old _ cs)]
      · rw [ih, joinWith_consFirst new c (piecesFrom_ne_nil old 0 cs)]

theorem replaceAll_eq_joinWith (some : sep ≠ []) (new s : List Char) :
    replaceAll sep new s = joinWith new (pieces sep s) := by
  have notEmpty : sep.isEmpty = false := by simpa using some
  rw [replaceAll, notEmpty]
  exact replaceFrom_eq_joinWith sep new 0 s

theorem occursIn_iff : occursIn sep s = true ↔ sep <:+: s := by
  induction s with
  | nil => rw [occursIn, List.isEmpty_iff, List.infix_nil]
  | cons c cs ih =>
    rw [occursIn, Bool.or_eq_true, ih, List.isPrefixOf_iff_prefix, List.infix_cons_iff]

end CapabilityGate.Text
