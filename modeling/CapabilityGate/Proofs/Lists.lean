import Mathlib.Data.List.Count
import Mathlib.Data.List.Nodup

/-!
# Lists with and without repetitions

In a list without a repeated key a key finds the one element that has it
(`find?_key_eq_some_iff`). In any list, `againAfter` picks what comes once more; that is nothing
exactly if there are no repetitions (`againAfter_nil_eq_nil_iff`).
-/
namespace CapabilityGate

/-! ## Looking up by a key -/

theorem find?_key_eq_some_iff {α κ : Type} [DecidableEq κ] {key : α → κ} {as : List α} {k : κ}
    {a : α} (distinct : (as.map key).Nodup) :
    as.find? (key · = k) = some a ↔ key a = k ∧ a ∈ as := by
  constructor
  · exact fun found => ⟨by simpa using List.find?_some found, List.mem_of_find?_eq_some found⟩
  · rintro ⟨rfl, member⟩
    cases found : as.find? (key · = key a) with
    | none => exact absurd (decide_eq_true rfl) (List.find?_eq_none.mp found a member)
    | some b =>
      have same : key b = key a := by simpa using List.find?_some found
      rw [List.inj_on_of_nodup_map distinct (List.mem_of_find?_eq_some found) member same]

/-! ## Elements that come again -/

section Again

variable {α β : Type} [DecidableEq α] [DecidableEq β] {seen seen' as bs : List α}

/-- **`againAfter seen as`** — the elements of `as` that come after an equal one, in `as` or in
`seen`. -/
def againAfter (seen : List α) : List α → List α
  | [] => []
  | a :: as => if a ∈ seen then a :: againAfter seen as else againAfter (a :: seen) as

/-- What a list is compared with counts as a set, and may be renamed together with the list. -/
theorem againAfter_map {f : α → β} {before : List β} (injective : Function.Injective f)
    (same : ∀ a, f a ∈ before ↔ a ∈ seen) (as : List α) :
    againAfter before (as.map f) = (againAfter seen as).map f := by
  induction as generalizing seen before with
  | nil => rfl
  | cons a as ih =>
    simp only [List.map_cons, againAfter, same a]
    split
    · rw [List.map_cons, ih same]
    · refine ih fun b => ?_
      rw [List.mem_cons, List.mem_cons, same b, injective.eq_iff]

theorem againAfter_congr (same : ∀ a, a ∈ seen' ↔ a ∈ seen) :
    againAfter seen' as = againAfter seen as := by
  simpa using againAfter_map Function.injective_id same as

theorem againAfter_append :
    againAfter seen (as ++ bs) = againAfter seen as ++ againAfter (as ++ seen) bs := by
  induction as generalizing seen with
  | nil => rfl
  | cons a as ih =>
    simp only [List.cons_append, againAfter]
    split
    · rename_i member
      have known : againAfter (a :: (as ++ seen)) bs = againAfter (as ++ seen) bs :=
        againAfter_congr fun b => by
          rw [List.mem_cons, or_iff_right_of_imp]
          rintro rfl
          exact List.mem_append_right _ member
      rw [ih, known, List.cons_append]
    · have moved : againAfter (a :: (as ++ seen)) bs = againAfter (as ++ a :: seen) bs :=
        againAfter_congr fun b => by simp [or_left_comm]
      rw [ih, moved]

theorem againAfter_sublist : (againAfter seen as).Sublist as := by
  induction as generalizing seen with
  | nil => exact .slnil
  | cons a as ih =>
    rw [againAfter]
    split
    · exact ih.cons_cons a
    · exact ih.cons a

/-- An element comes again once less than it comes, or each time if it has come before. -/
theorem count_againAfter (a : α) :
    (againAfter seen as).count a = as.count a - if a ∈ seen then 0 else 1 := by
  induction as generalizing seen with
  | nil => simp [againAfter]
  | cons b as ih =>
    rw [againAfter]
    by_cases same : b = a
    · subst same
      split
      · rename_i member
        rw [List.count_cons_self, List.count_cons_self, ih, if_pos member]
        omega
      · rename_i absent
        rw [List.count_cons_self, ih, if_pos List.mem_cons_self]
        omega
    · split
      · rw [List.count_cons_of_ne same, List.count_cons_of_ne same, ih]
      · rw [List.count_cons_of_ne same, ih]
        simp [Ne.symm same]

theorem againAfter_nil_eq_nil_iff : againAfter [] as = [] ↔ as.Nodup := by
  rw [List.nodup_iff_count_le_one, List.eq_nil_iff_forall_not_mem]
  refine forall_congr' fun a => ?_
  rw [← List.count_eq_zero, count_againAfter]
  simp only [List.not_mem_nil, if_false]
  omega

end Again

end CapabilityGate
