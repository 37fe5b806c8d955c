import CapabilityGate.Decimal.Layout
import CapabilityGate.Proofs.Wire.Magnitude
import CapabilityGate.Proofs.Wire.Numeral

/-!
# Floating-point numbers as they are written

The text of a finite number is a numeral with a point or an exponent and never too large, so it is
read as a floating-point number again, though not always as the same one. `Binary64.reread?` is what
comes back. What is not finite has the text of null, so exactly the finite numbers come back as
numbers (`Binary64.reread?_isSome_iff`).
-/
namespace CapabilityGate

/-! ## The parts of a finite number -/

namespace Binary64

/-- What a finite number stands for, with the bounds of its significand and its exponent. -/
theorem view_of_isFinite {x : Binary64} (h : x.isFinite = true) :
    ∃ m q, x.view = .finite x.negative m q ∧ m < 2 * hiddenBit ∧ -1074 ≤ q ∧ q ≤ 971 := by
  have bit : hiddenBit = 4503599627370496 := rfl
  have fraction : x.fraction < hiddenBit := Nat.mod_lt _ (by decide)
  have field : x.exponentField < 0x7FF := by
    have small : x.magnitude < 0x7FF * hiddenBit := of_decide_eq_true h
    exact Nat.div_lt_of_lt_mul (by rwa [Nat.mul_comm])
  unfold view
  rw [if_neg (Nat.ne_of_lt field)]
  split
  · exact ⟨x.fraction, -1074, rfl, by omega, by omega, by omega⟩
  · exact ⟨hiddenBit + x.fraction, (x.exponentField : Int) - 1075, rfl, by omega, by omega,
      by omega⟩

end Binary64

namespace Json

/-- The text of a number without its sign that is not written as an integer and has a value. -/
def IsFloatText (text : List Char) : Prop :=
  ∃ n : Numeral, n.WellFormed ∧ n.negative = false ∧ n.unsigned = text ∧
    (n.fraction ≠ none ∨ n.exponent ≠ none) ∧ n.magnitude.isSome

theorem isFloatText_point {whole fraction : List Char} (hwhole : IsDigits whole)
    (short : whole.length ≤ 16) (leading : whole.head? = some '0' → whole = ['0'])
    (hfraction : IsDigits fraction) : IsFloatText (whole ++ '.' :: fraction) := by
  refine ⟨⟨false, whole, some fraction, none⟩, ⟨hwhole, leading, ?_, by simp⟩, rfl, ?_, by simp,
    Numeral.magnitude_point_isSome hwhole.2 short hfraction.2 hfraction.1⟩
  · rintro _ ⟨⟩
    exact hfraction
  · simp [Numeral.unsigned]

/-! ## The two forms of the layout -/

/-- Digits that do not start with a zero. -/
structure IsCoefficient (ds : List Char) : Prop where
  digits : IsDigits ds
  leading : ds.head? ≠ some '0'

theorem isCoefficient_digits {n : Nat} (hn : 0 < n) : IsCoefficient (Decimal.digits n) := by
  refine ⟨isDigits_digits n, fun zero => ?_⟩
  have value : Decimal.value (Decimal.digits n) = Decimal.value ['0'] := by
    rw [digits_of_head_zero zero]
  rw [Decimal.value_digits] at value
  have none : Decimal.value ['0'] = 0 := rfl
  omega

theorem isDigit_of_mem_zeros {count : Nat} : ∀ c ∈ List.replicate count '0', Decimal.isDigit c := by
  intro c hc
  rw [List.eq_of_mem_replicate hc]
  rfl

theorem isDigits_zero : IsDigits ['0'] := by
  simp [IsDigits]
  rfl

namespace IsCoefficient

variable {ds : List Char} {point : Int}

/-- The form without an exponent has a point in all three cases. -/
theorem positional (h : IsCoefficient ds) (last : point ≤ 16) :
    IsFloatText (Decimal.positionalText ".0" ds point) := by
  obtain ⟨d, rest, rfl⟩ := List.exists_cons_of_ne_nil h.digits.1
  have first : d ≠ '0' := fun zero => h.leading (by rw [zero]; rfl)
  have all := h.digits.2
  unfold Decimal.positionalText
  dsimp only
  split
  · rename_i short
    refine isFloatText_point ⟨by simp, fun c hc => ?_⟩ ?_ (by simp [first]) isDigits_zero
    · rcases List.mem_append.mp hc with hc | hc
      · exact all c hc
      · exact isDigit_of_mem_zeros c hc
    · rw [List.length_append, List.length_replicate]
      omega
  · rename_i long
    split
    · rename_i inside
      obtain ⟨n, hn⟩ : ∃ n, point.toNat = n + 1 := ⟨point.toNat - 1, by omega⟩
      rw [hn, List.take_succ_cons, List.drop_succ_cons]
      refine isFloatText_point ⟨by simp, fun c hc => all c ?_⟩ ?_ (by simp [first])
        ⟨?_, fun c hc => all c (.tail d (List.mem_of_mem_drop hc))⟩
      · exact List.mem_of_mem_take (i := n + 1) (by rwa [List.take_succ_cons])
      · rw [List.length_cons, List.length_take]
        omega
      · simp only [List.length_cons] at long
        rw [ne_eq, List.drop_eq_nil_iff]
        omega
    · refine isFloatText_point isDigits_zero (by decide) (fun _ => rfl) ⟨by simp, fun c hc => ?_⟩
      rcases List.mem_append.mp hc with hc | hc
      · exact isDigit_of_mem_zeros c hc
      · exact all c hc

/-- The form with an exponent has a value if its digits can be scaled. -/
theorem exponent (h : IsCoefficient ds) (fits : Decimal.value ds < UInt64.size)
    (limit : point ≤ Numeral.exponentLimit)
    (scaled : 0 ≤ point - ds.length →
      (Numeral.scale (Decimal.value ds) (point - ds.length)).isSome) :
    IsFloatText (Decimal.exponentText "+" ds point) := by
  obtain ⟨d, rest, rfl⟩ := List.exists_cons_of_ne_nil h.digits.1
  have first : d ≠ '0' := fun zero => h.leading (by rw [zero]; rfl)
  have place : point - (d :: rest).length = -rest.length + (point - 1) := by
    rw [List.length_cons]
    omega
  rw [place] at scaled
  refine ⟨⟨false, [d], if rest = [] then none else some rest,
    some (point - 1 < 0, Decimal.digits (point - 1).natAbs)⟩, ⟨?_, by simp [first], ?_, ?_⟩, rfl,
    ?_, by simp, ?_⟩
  · exact ⟨by simp, fun c hc => h.digits.2 c (by simp_all)⟩
  · intro ds hds
    by_cases none : rest = []
    · simp [none] at hds
    · rw [if_neg none] at hds
      cases hds
      exact ⟨none, fun c hc => h.digits.2 c (.tail d hc)⟩
  · rintro _ _ ⟨⟩
    exact isDigits_digits _
  · have sign : ∀ e : Int, (if 0 ≤ e then ['+'] else []) ++ Decimal.signedDigits e =
        (if decide (e < 0) then '-' else '+') :: Decimal.digits e.natAbs := by
      intro e
      rw [Decimal.signedDigits]
      by_cases negative : e < 0
      · simp [negative, Int.not_le.mpr negative]
      · simp [negative, Int.not_lt.mp negative]
    have plus : "+".toList = ['+'] := rfl
    cases rest <;> simp only [Numeral.unsigned, Decimal.exponentText, plus, sign] <;> rfl
  · rw [Numeral.magnitude_exponent fits]
    exact Numeral.applyExponent_isSome (by omega) (by omega) scaled

end IsCoefficient

end Json

namespace Decimal

/-- A positive finite number is written in one of the two forms, by the place of its point. -/
theorem isFloatText_writeFinite {m : Nat} {q : Int} (hm : m ≠ 0)
    (bound : m < 2 * Binary64.hiddenBit) (least : -1074 ≤ q) (most : q ≤ 971) :
    Json.IsFloatText (json.writeFinite m q) := by
  have positive := shortest_pos .even hm bound least
  have digits17 := shortest_le .even hm bound least most
  have scaled := Json.Numeral.scale_shortest_isSome hm bound least most
  unfold Layout.writeFinite
  dsimp only [json]
  generalize shortest .even m q = s at positive digits17 scaled ⊢
  have coefficient := Json.isCoefficient_digits positive
  split
  · rename_i inside
    exact coefficient.positional inside.2
  · have fits : s.coefficient < UInt64.size := Nat.lt_of_le_of_lt digits17 (by decide)
    have length := length_digits_le (n := s.coefficient) (k := 18) (by decide)
      (Nat.lt_of_le_of_lt digits17 (by decide))
    have limit : Json.Numeral.exponentLimit = 2147483647 := rfl
    refine coefficient.exponent (by rwa [value_digits]) ?_ fun whole => ?_
    · rcases Int.lt_or_le s.exponent 0 with negative | whole
      · omega
      · have top := Json.Numeral.le_of_scale_isSome (Nat.ne_of_gt positive) (scaled whole)
        omega
    · have exponent : ((digits s.coefficient).length : Int) + s.exponent -
          (digits s.coefficient).length = s.exponent := by omega
      rw [exponent] at whole ⊢
      rw [value_digits]
      exact scaled whole

/-- The text of every finite number is a numeral with a value, and not that of an integer. -/
theorem jsonText_eq_numeral {x : Binary64} (h : x.isFinite = true) :
    ∃ n : Json.Numeral, n.WellFormed ∧ jsonText x = n.text ∧
      (n.fraction ≠ none ∨ n.exponent ≠ none) ∧ n.magnitude.isSome := by
  obtain ⟨m, q, view, bound, least, most⟩ := Binary64.view_of_isFinite h
  have unsigned : ∃ text, Json.IsFloatText text ∧
      jsonText x = (if x.negative then ['-'] else []) ++ text := by
    unfold jsonText
    rw [if_pos h, Layout.write, view]
    cases m with
    | zero => exact ⟨['0', '.', '0'], Json.isFloatText_point Json.isDigits_zero (by decide)
        (fun _ => rfl) Json.isDigits_zero, rfl⟩
    | succ m => exact ⟨_, isFloatText_writeFinite (Nat.succ_ne_zero m) bound least most, rfl⟩
  obtain ⟨_, ⟨n, hn, positive, rfl, float⟩, text⟩ := unsigned
  refine ⟨{ n with negative := x.negative },
    ⟨hn.whole, hn.leading, hn.fraction, hn.exponent⟩, ?_, float⟩
  rw [text, Json.Numeral.text]
  cases x.negative <;> rfl

/-- What is no number has the text of null. -/
theorem jsonText_of_not_isFinite {x : Binary64} (h : x.isFinite = false) :
    jsonText x = "null".toList := by
  simp [jsonText, h, json]

end Decimal

theorem Json.rereadNumber_null : rereadNumber "null".toList = null :=
  rfl

/-! ## Numbers that come back -/

/-- **`x.reread?`** — the number that the text of a number is read as, if it is one. -/
def Binary64.reread? (x : Binary64) : Option Binary64 :=
  match Json.rereadNumber (Decimal.jsonText x) with
  | .float y => some y
  | _ => none

/-- The text of a finite number is read as a number. -/
theorem Json.rereadNumber_of_isFinite {x : Binary64} (finite : x.isFinite = true) :
    ∃ y, rereadNumber (Decimal.jsonText x) = .float y := by
  obtain ⟨n, hn, text, float, value⟩ := Decimal.jsonText_eq_numeral finite
  obtain ⟨y, magnitude⟩ := Option.isSome_iff_exists.mp value
  have point : ¬ (n.fraction = none ∧ n.exponent = none) := fun h =>
    float.elim (fun f => f h.1) (fun e => e h.2)
  refine ⟨.ofMagnitude n.negative y.magnitude, ?_⟩
  rw [rereadNumber, text, hn.parse, Option.getD_some, Numeral.value,
    if_neg fun h => point ⟨h.1, h.2.1⟩, magnitude]

/-- **Exactly the finite numbers come back as numbers.** -/
theorem Binary64.reread?_isSome_iff (x : Binary64) : x.reread?.isSome ↔ x.isFinite := by
  cases finite : x.isFinite with
  | true =>
    obtain ⟨y, number⟩ := Json.rereadNumber_of_isFinite finite
    simp [reread?, number]
  | false =>
    rw [reread?, Decimal.jsonText_of_not_isFinite finite, Json.rereadNumber_null]
    simp

/-- The text of a number is read as a number, or as null. -/
theorem Json.rereadNumber_jsonText (x : Binary64) :
    rereadNumber (Decimal.jsonText x) =
      match x.reread? with
      | some y => .float y
      | none => .null := by
  cases finite : x.isFinite with
  | true =>
    obtain ⟨y, number⟩ := rereadNumber_of_isFinite finite
    rw [Binary64.reread?, number]
  | false =>
    rw [Binary64.reread?, Decimal.jsonText_of_not_isFinite finite, rereadNumber_null]

end CapabilityGate
