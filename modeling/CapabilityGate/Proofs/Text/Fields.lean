import CapabilityGate.Text.Search

/-!
# Fields of a text

A text cut at every separator. There is one more field than there are separators
(`Text.length_fields`), the first field ends where the first separator stands, and what comes behind
that is cut by itself (`Text.fields_append`). So a property of all texts can be proved field by field:
`Text.fieldwise`. The fields are made of all characters of the text but the separators, and joined
with separators they give it back (`Text.joinWith_fields`). Strings that were joined stand in the
whole (`Text.infix_joinStrings`) and come back as its fields (`Text.fields_joinStrings`).
-/
namespace CapabilityGate.Text

variable {sep : Char} {s t : List Char}

theorem fields_ne_nil (sep : Char) (s : List Char) : fields sep s ≠ [] := by
  cases s with
  | nil => simp [fields]
  | cons c s =>
    rw [fields]
    split
    · simp
    · cases fields sep s <;> simp [consFirst]

theorem length_consFirst {ps : List (List Char)} (c : Char) (some : ps ≠ []) :
    (consFirst c ps).length = ps.length := by
  cases ps with
  | nil => exact absurd rfl some
  | cons p ps => rfl

/-- A separator starts a new field. -/
theorem length_fields (sep : Char) (s : List Char) :
    (fields sep s).length = s.count sep + 1 := by
  induction s with
  | nil => rfl
  | cons c s ih =>
    rw [fields]
    split
    · rename_i same
      subst same
      rw [List.length_cons, ih, List.count_cons_self]
    · rename_i other
      rw [length_consFirst c (fields_ne_nil sep s), ih, List.count_cons_of_ne other]

/-- Without a separator there is one field. -/
theorem fields_of_not_mem (h : sep ∉ s) : fields sep s = [s] := by
  induction s with
  | nil => rfl
  | cons c s ih =>
    rw [List.mem_cons, not_or] at h
    rw [fields, if_neg (Ne.symm h.1), ih h.2]
    rfl

/-- The text before the first separator is the first field. -/
theorem fields_append (h : sep ∉ s) (t : List Char) :
    fields sep (s ++ sep :: t) = s :: fields sep t := by
  induction s with
  | nil => rw [List.nil_append, fields, if_pos rfl]
  | cons c s ih =>
    rw [List.mem_cons, not_or] at h
    rw [List.cons_append, fields, if_neg (Ne.symm h.1), ih h.2]
    rfl

/-- A text has no separator, or it has a first one. -/
theorem not_mem_or_append (sep : Char) (s : List Char) :
    sep ∉ s ∨ ∃ first rest, sep ∉ first ∧ s = first ++ sep :: rest := by
  by_cases h : sep ∈ s
  · obtain ⟨first, rest, rfl, absent⟩ := List.eq_append_cons_of_mem h
    exact .inr ⟨first, rest, absent, rfl⟩
  · exact .inl h

/-- **Induction along the fields of a text**: on a text that is one field, and on one more field in
front of a text. -/
theorem fieldwise (sep : Char) {P : List Char → Prop} (single : ∀ s, sep ∉ s → P s)
    (further : ∀ first rest, sep ∉ first → P rest → P (first ++ sep :: rest)) (s : List Char) :
    P s := by
  -- On the length: the text behind the first separator is shorter.
  induction h : s.length using Nat.strongRecOn generalizing s with
  | ind n ih =>
    rcases not_mem_or_append sep s with absent | ⟨first, rest, absent, rfl⟩
    · exact single s absent
    · refine further first rest absent (ih rest.length ?_ rest rfl)
      rw [← h, List.length_append, List.length_cons]
      omega

/-! ## What the fields are made of -/

theorem not_mem_of_mem_fields {f : List Char} (h : f ∈ fields sep s) : sep ∉ f := by
  induction s using fieldwise sep with
  | single s absent =>
    rw [fields_of_not_mem absent, List.mem_singleton] at h
    exact h ▸ absent
  | further first rest absent ih =>
    rw [fields_append absent, List.mem_cons] at h
    rcases h with rfl | later
    · exact absent
    · exact ih later

/-- Every character is a separator or stands in a field. -/
theorem eq_or_mem_field (sep : Char) {c : Char} (h : c ∈ s) :
    c = sep ∨ ∃ f ∈ fields sep s, c ∈ f := by
  induction s using fieldwise sep with
  | single s absent => exact .inr ⟨s, by rw [fields_of_not_mem absent]; simp, h⟩
  | further first rest absent ih =>
    rw [fields_append absent]
    rcases List.mem_append.mp h with early | late
    · exact .inr ⟨first, List.mem_cons_self, early⟩
    · rcases List.mem_cons.mp late with same | later
      · exact .inl same
      · rcases ih later with same | ⟨f, field, member⟩
        · exact .inl same
        · exact .inr ⟨f, List.mem_cons_of_mem _ field, member⟩

theorem toList_joinStrings_cons {between s s' : String} {ss : List String} :
    (joinStrings between (s :: s' :: ss)).toList =
      s.toList ++ (between.toList ++ (joinStrings between (s' :: ss)).toList) := by
  simp [joinStrings]

/-- What is joined stands in the whole. -/
theorem infix_joinStrings {between s : String} {ss : List String} (member : s ∈ ss) :
    s.toList <:+: (joinStrings between ss).toList := by
  induction ss with
  | nil => cases member
  | cons t ss ih =>
    cases ss with
    | nil =>
      obtain rfl := List.mem_singleton.mp member
      simp [joinStrings]
    | cons u ss =>
      rw [toList_joinStrings_cons]
      rcases List.mem_cons.mp member with rfl | later
      · exact List.infix_append' [] s.toList _
      · exact ((ih later).trans (List.suffix_append _ _).isInfix).trans
          (List.suffix_append _ _).isInfix

/-! ## Joining -/

theorem joinWith_eq_intercalate (between : List Char) (ps : List (List Char)) :
    joinWith between ps = between.intercalate ps := by
  induction ps with
  | nil => rfl
  | cons p ps ih =>
    cases ps with
    | nil => simp [joinWith]
    | cons q qs => simp [joinWith, ih]

theorem toList_joinStrings (between : String) (ss : List String) :
    (joinStrings between ss).toList = joinWith between.toList (ss.map String.toList) := by
  rw [joinStrings, String.toList_intercalate, joinWith_eq_intercalate]

/-- Nothing is lost between the fields but the separators. -/
theorem joinWith_fields (sep : Char) (s : List Char) : joinWith [sep] (fields sep s) = s := by
  induction s with
  | nil => rfl
  | cons c s ih =>
    rw [fields]
    split
    · rename_i same
      rw [joinWith_nil_cons [sep] (fields_ne_nil sep s), ih, same]
      rfl
    · rw [joinWith_consFirst [sep] c (fields_ne_nil sep s), ih]

/-- Texts without a separator are the fields of what they are joined to. -/
theorem fields_joinWith {ps : List (List Char)} (some : ps ≠ []) (plain : ∀ p ∈ ps, sep ∉ p) :
    fields sep (joinWith [sep] ps) = ps := by
  induction ps with
  | nil => exact absurd rfl some
  | cons p ps ih =>
    have absent : sep ∉ p := plain p List.mem_cons_self
    cases ps with
    | nil => exact fields_of_not_mem absent
    | cons q qs =>
      have rest := ih (by simp) fun r member => plain r (List.mem_cons_of_mem p member)
      rw [joinWith, List.append_assoc, List.singleton_append, fields_append absent, rest]

theorem fields_joinStrings {ss : List String} (some : ss ≠ [])
    (plain : ∀ s ∈ ss, sep ∉ s.toList) :
    fields sep (joinStrings (String.singleton sep) ss).toList = ss.map String.toList := by
  rw [toList_joinStrings, String.toList_singleton]
  refine fields_joinWith (by simpa using some) ?_
  intro p listed
  obtain ⟨s, member, rfl⟩ := List.mem_map.mp listed
  exact plain s member

/-- The text before the first separator, and the text behind it. -/
theorem splitFirst_append (h : sep ∉ s) (t : List Char) :
    splitFirst sep (s ++ sep :: t) = some (s, t) := by
  induction s with
  | nil => rw [List.nil_append, splitFirst, if_pos rfl]
  | cons c s ih =>
    rw [List.mem_cons, not_or] at h
    rw [List.cons_append, splitFirst, if_neg (Ne.symm h.1), ih h.2]
    rfl

end CapabilityGate.Text
