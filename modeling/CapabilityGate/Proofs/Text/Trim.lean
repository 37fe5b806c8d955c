import CapabilityGate.Capability.Name
import Mathlib.Data.List.DropRight

/-!
# Texts without blanks around them

A text that has been trimmed has a blank at neither end, so trimming it once more leaves it as it is
(`Text.trim_trim`, `Text.trimChars_eq_self_iff`). Only blanks are lost
(`Text.mem_trimChars_of_not_blank`). The name of a capability is a trimmed text, and a name that was
accepted is accepted again (`Capability.parse_name`).
-/
namespace CapabilityGate

namespace Text

/-- A run of characters of one sort comes off the front of a text. -/
theorem span_append {p : Char → Bool} {run rest : List Char} (inside : ∀ c ∈ run, p c = true)
    (ends : ∀ c ∈ rest.head?, p c = false) :
    (run ++ rest).takeWhile p = run ∧ (run ++ rest).dropWhile p = rest := by
  have nothing : rest.takeWhile p = [] ∧ rest.dropWhile p = rest := by
    cases rest with
    | nil => exact ⟨rfl, rfl⟩
    | cons c cs => simp [ends c rfl]
  rw [List.takeWhile_append_of_pos inside, List.dropWhile_append_of_pos inside, nothing.1,
    nothing.2, List.append_nil]
  exact ⟨rfl, rfl⟩

/-- What begins without a blank still does when blanks are dropped at its end. -/
theorem dropWhile_trimEnd (cs : List Char) :
    (trimEnd (cs.dropWhile isBlank)).dropWhile isBlank = trimEnd (cs.dropWhile isBlank) := by
  have shorter : trimEnd (cs.dropWhile isBlank) <+: cs.dropWhile isBlank :=
    List.rdropWhile_prefix isBlank _
  rw [List.dropWhile_eq_self_iff]
  intro some
  rw [shorter.getElem some]
  exact List.dropWhile_get_zero_not isBlank cs _

theorem trimChars_trimChars (cs : List Char) : trimChars (trimChars cs) = trimChars cs := by
  show trimEnd ((trimEnd (cs.dropWhile isBlank)).dropWhile isBlank) = trimEnd (cs.dropWhile isBlank)
  rw [dropWhile_trimEnd]
  exact List.rdropWhile_idempotent isBlank _

/-- **`IsTrimmed cs`** — the text begins and ends without a blank. -/
structure IsTrimmed (cs : List Char) : Prop where
  first : ∀ c ∈ cs.head?, isBlank c = false
  last : ∀ c ∈ cs.getLast?, isBlank c = false

theorem dropWhile_isBlank_eq_self_iff {cs : List Char} :
    cs.dropWhile isBlank = cs ↔ ∀ c ∈ cs.head?, isBlank c = false := by
  rw [List.dropWhile_eq_self_iff]
  cases cs <;> simp

theorem trimEnd_eq_self_iff {cs : List Char} :
    trimEnd cs = cs ↔ ∀ c ∈ cs.getLast?, isBlank c = false := by
  rw [trimEnd, List.reverse_eq_iff, dropWhile_isBlank_eq_self_iff, List.head?_reverse]

/-- A text is trimmed if trimming leaves it as it is. -/
theorem trimChars_eq_self_iff {cs : List Char} : trimChars cs = cs ↔ IsTrimmed cs := by
  constructor
  · intro same
    have shorter : trimEnd (cs.dropWhile isBlank) <+: cs.dropWhile isBlank :=
      List.rdropWhile_prefix isBlank _
    -- Nothing is dropped at the end, so nothing can have been dropped in front.
    have kept : cs.dropWhile isBlank = cs := by
      refine (List.dropWhile_suffix isBlank).eq_of_length_le ?_
      rw [← trimChars, same] at shorter
      exact shorter.length_le
    rw [trimChars, kept] at same
    exact ⟨dropWhile_isBlank_eq_self_iff.mp kept, trimEnd_eq_self_iff.mp same⟩
  · rintro ⟨first, last⟩
    rw [trimChars, dropWhile_isBlank_eq_self_iff.mpr first, trimEnd_eq_self_iff.mpr last]

theorem isTrimmed_trimChars (cs : List Char) : IsTrimmed (trimChars cs) :=
  trimChars_eq_self_iff.mp (trimChars_trimChars cs)

/-- **`StripsTo s t`** — the text `t` is what stands between the blanks at both ends of `s`. -/
structure StripsTo (s t : List Char) : Prop where
  trimmed : IsTrimmed t
  between : ∃ front back, (∀ c ∈ front, isBlank c = true) ∧ (∀ c ∈ back, isBlank c = true) ∧
    front ++ (t ++ back) = s

theorem stripsTo_trimChars (s : List Char) : StripsTo s (trimChars s) := by
  refine ⟨isTrimmed_trimChars s, s.takeWhile isBlank,
    ((s.dropWhile isBlank).reverse.takeWhile isBlank).reverse, ?_, ?_, ?_⟩
  · intro c front
    exact List.mem_takeWhile_imp front
  · intro c back
    exact List.mem_takeWhile_imp (List.mem_reverse.mp back)
  · rw [trimChars, trimEnd, ← List.reverse_append, List.takeWhile_append_dropWhile,
      List.reverse_reverse, List.takeWhile_append_dropWhile]

/-- The blanks around a trimmed text come off it, and nothing else. -/
theorem StripsTo.eq_trimChars {s t : List Char} (h : StripsTo s t) : t = trimChars s := by
  obtain ⟨⟨first, last⟩, front, back, blank, blank', rfl⟩ := h
  cases t with
  | nil =>
    have allBlank : ∀ c ∈ front ++ ([] ++ back), isBlank c = true := by
      intro c member
      rcases List.mem_append.mp member with member | member
      · exact blank c member
      · exact blank' c member
    rw [trimChars, List.dropWhile_eq_nil_iff.mpr allBlank]
    rfl
  | cons d t =>
    have starts : ∀ c ∈ (d :: t ++ back).head?, isBlank c = false := first
    have kept := (span_append blank starts).2
    have ends : ∀ c ∈ (d :: t).reverse.head?, isBlank c = false := by
      rwa [List.head?_reverse]
    have kept' :=
      (span_append (fun c member => blank' c (List.mem_reverse.mp member)) ends).2
    rw [trimChars, kept, trimEnd, List.reverse_append, kept', List.reverse_reverse]

theorem stripsTo_iff {s t : List Char} : StripsTo s t ↔ t = trimChars s :=
  ⟨StripsTo.eq_trimChars, fun h => h ▸ stripsTo_trimChars s⟩

theorem isTrimmed_of_no_blank {cs : List Char} (h : ∀ c ∈ cs, isBlank c = false) : IsTrimmed cs :=
  ⟨fun c first => h c (List.mem_of_mem_head? first),
    fun c last => h c (List.mem_of_mem_getLast? last)⟩

/-- A text that ends without a blank is trimmed in front only. -/
theorem trimChars_of_last {cs : List Char} (last : ∀ c ∈ cs.getLast?, isBlank c = false) :
    trimChars cs = cs.dropWhile isBlank := by
  refine trimEnd_eq_self_iff.mpr fun c lastLeft => last c ?_
  obtain ⟨dropped, split⟩ := List.dropWhile_suffix (l := cs) isBlank
  rw [← split]
  exact List.mem_getLast?_append_of_mem_getLast? lastLeft

theorem mem_dropWhile_of_not_blank {c : Char} {cs : List Char} (h : c ∈ cs)
    (plain : isBlank c = false) : c ∈ cs.dropWhile isBlank := by
  rw [← List.takeWhile_append_dropWhile (p := isBlank) (l := cs), List.mem_append] at h
  refine h.resolve_left fun dropped => ?_
  rw [List.mem_takeWhile_imp dropped] at plain
  cases plain

theorem mem_trimChars_of_not_blank {c : Char} {cs : List Char} (h : c ∈ cs)
    (plain : isBlank c = false) : c ∈ trimChars cs := by
  rw [trimChars, trimEnd, List.mem_reverse]
  exact mem_dropWhile_of_not_blank
    (List.mem_reverse.mpr (mem_dropWhile_of_not_blank h plain)) plain

theorem mem_of_mem_trimChars {c : Char} {cs : List Char} (h : c ∈ trimChars cs) : c ∈ cs := by
  rw [trimChars, trimEnd, List.mem_reverse] at h
  have kept := List.mem_reverse.mp ((List.dropWhile_sublist isBlank).subset h)
  exact (List.dropWhile_sublist isBlank).subset kept

theorem trim_trim (s : String) : trim (trim s) = trim s := by
  rw [trim, trim, String.toList_ofList, trimChars_trimChars]

end Text

namespace Capability

variable {s : String} {c : Capability}

/-- A name is accepted for what it is without the blanks around it. -/
theorem parse_eq_ok (h : parse s = .ok c) : c = ⟨Text.trim s⟩ := by
  unfold parse at h
  dsimp only at h
  split at h
  · exact (Except.ok.inj h).symm
  · cases h

theorem parse_name (h : parse s = .ok c) : parse c.name = .ok c := by
  obtain rfl := parse_eq_ok h
  unfold parse at h ⊢
  rw [Text.trim_trim]
  exact h

end Capability

end CapabilityGate
