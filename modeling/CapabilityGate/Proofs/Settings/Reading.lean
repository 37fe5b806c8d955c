import Mathlib.Data.List.Forall2

/-!
# Readings that may fail

What a reader makes of a document is put together from smaller readings: one after the other, with
the cause of a failure put into other words, and for a list element by element. The lemmas say what
the success, and what the failure, of such a reading says about its parts; for a list the success is
a `List.Forall₂` between what was read and what it was read as.
-/
namespace CapabilityGate

/-! ## Two lists, element by element -/

section Related

variable {α β : Type} {R : α → β → Prop} {as : List α} {bs : List β} {a : α} {b : β}

theorem forall₂_mem_left (h : List.Forall₂ R as bs) (member : a ∈ as) : ∃ b ∈ bs, R a b := by
  induction h with
  | nil => cases member
  | cons first _ ih =>
    rcases List.mem_cons.mp member with rfl | later
    · exact ⟨_, List.mem_cons_self, first⟩
    · obtain ⟨b, found, related⟩ := ih later
      exact ⟨b, List.mem_cons_of_mem _ found, related⟩

theorem forall₂_mem_right (h : List.Forall₂ R as bs) (member : b ∈ bs) : ∃ a ∈ as, R a b := by
  have reversed : List.Forall₂ (fun b a => R a b) bs as := h.flip
  exact forall₂_mem_left reversed member

/-- The last elements are related, or there are none. -/
theorem forall₂_getLast? (h : List.Forall₂ R as bs) : Option.Rel R as.getLast? bs.getLast? := by
  have reversed := List.forall₂_reverse_iff.mpr h
  rw [← List.head?_reverse, ← List.head?_reverse]
  generalize as.reverse = as', bs.reverse = bs' at reversed ⊢
  rcases reversed with - | ⟨last, -⟩
  · exact .none
  · exact .some last

theorem exists_forall₂ (h : ∀ a ∈ as, ∃ b, R a b) : ∃ bs, List.Forall₂ R as bs := by
  induction as with
  | nil => exact ⟨[], .nil⟩
  | cons a as ih =>
    obtain ⟨b, first⟩ := h a List.mem_cons_self
    obtain ⟨bs, rest⟩ := ih fun a' member => h a' (List.mem_cons_of_mem a member)
    exact ⟨b :: bs, .cons first rest⟩

end Related

/-! ## Readings without a cause of failure -/

theorem mapM_eq_some_iff {α β : Type} {f : α → Option β} {as : List α} {bs : List β} :
    as.mapM f = some bs ↔ List.Forall₂ (fun a b => f a = some b) as bs := by
  induction as generalizing bs with
  | nil => simp [eq_comm]
  | cons a as ih =>
    rw [List.mapM_cons, List.forall₂_cons_left_iff]
    simp only [Option.bind_eq_bind, Option.bind_eq_some_iff, Option.pure_def, Option.some.injEq, ih]
    constructor
    · rintro ⟨b, first, bs', rest, rfl⟩
      exact ⟨b, bs', first, rest, rfl⟩
    · rintro ⟨b, bs', first, rest, rfl⟩
      exact ⟨b, first, bs', rest, rfl⟩

/-! ## Readings with a cause of failure -/

section Reading

variable {α β ε ε' : Type} {x : Except ε α} {f : α → Except ε β} {as : List α} {bs : List β}
  {a : α} {b : β} {e : ε}

theorem bind_eq_ok_iff : x >>= f = .ok b ↔ ∃ a, x = .ok a ∧ f a = .ok b := by
  cases x <;> simp [bind, Except.bind]

theorem bind_eq_error_iff :
    x >>= f = .error e ↔ x = .error e ∨ ∃ a, x = .ok a ∧ f a = .error e := by
  cases x <;> simp [bind, Except.bind]

theorem mapError_eq_ok_iff {word : ε → ε'} : x.mapError word = .ok a ↔ x = .ok a := by
  cases x <;> simp [Except.mapError]

theorem mapError_eq_error_iff {word : ε → ε'} {e' : ε'} :
    x.mapError word = .error e' ↔ ∃ e, x = .error e ∧ word e = e' := by
  cases x <;> simp [Except.mapError]

/-- A list is read element by element. -/
theorem mapM_eq_ok_iff : as.mapM f = .ok bs ↔ List.Forall₂ (fun a b => f a = .ok b) as bs := by
  induction as generalizing bs with
  | nil =>
    rw [List.mapM_nil, List.forall₂_nil_left_iff]
    exact ⟨fun h => by cases h; rfl, fun h => by rw [h]; rfl⟩
  | cons a as ih =>
    rw [List.mapM_cons, bind_eq_ok_iff, List.forall₂_cons_left_iff]
    constructor
    · rintro ⟨b, first, h⟩
      obtain ⟨bs', rest, h⟩ := bind_eq_ok_iff.mp h
      cases h
      exact ⟨b, bs', first, ih.mp rest, rfl⟩
    · rintro ⟨b, bs', first, rest, rfl⟩
      exact ⟨b, first, bind_eq_ok_iff.mpr ⟨bs', ih.mpr rest, rfl⟩⟩

theorem mapM_eq_error (h : as.mapM f = .error e) : ∃ a ∈ as, f a = .error e := by
  induction as with
  | nil => cases h
  | cons a as ih =>
    rw [List.mapM_cons] at h
    rcases bind_eq_error_iff.mp h with first | ⟨b, -, h⟩
    · exact ⟨a, List.mem_cons_self, first⟩
    · rcases bind_eq_error_iff.mp h with rest | ⟨bs, -, h⟩
      · obtain ⟨a', member, bad⟩ := ih rest
        exact ⟨a', List.mem_cons_of_mem a member, bad⟩
      · cases h

variable {check : α → Except ε Unit}

/-- A check of a list is a check of each element. -/
theorem forM_eq_ok_iff : as.forM check = .ok () ↔ ∀ a ∈ as, check a = .ok () := by
  induction as with
  | nil => exact ⟨fun _ => by simp, fun _ => rfl⟩
  | cons a as ih =>
    rw [show (a :: as).forM check = (check a >>= fun _ => as.forM check) from rfl, bind_eq_ok_iff,
      List.forall_mem_cons, ← ih]
    constructor
    · rintro ⟨_, first, rest⟩
      exact ⟨first, rest⟩
    · rintro ⟨first, rest⟩
      exact ⟨(), first, rest⟩

theorem forM_eq_error (h : as.forM check = .error e) : ∃ a ∈ as, check a = .error e := by
  induction as with
  | nil => cases h
  | cons a as ih =>
    rcases bind_eq_error_iff.mp h with first | ⟨-, -, rest⟩
    · exact ⟨a, List.mem_cons_self, first⟩
    · obtain ⟨a', member, bad⟩ := ih rest
      exact ⟨a', List.mem_cons_of_mem a member, bad⟩

end Reading

end CapabilityGate
