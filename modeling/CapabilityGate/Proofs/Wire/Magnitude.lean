import CapabilityGate.Json.Numeral
import CapabilityGate.Proofs.Decimal.Shortest

/-!
# Which numerals have a value

A numeral with digits behind its point and no exponent always has a value
(`Numeral.magnitude_point_isSome`). With an exponent it has the value of its digits scaled by one
power of ten (`Numeral.magnitude_exponent`), if that is not too large. The shortest decimal of a
finite number never is (`scale_shortest_isSome`).
-/
namespace CapabilityGate

/-! ## Runs of digits and their numbers -/

namespace Decimal

/-- **`extend n ds`** — the number whose digits are those of `n` and then `ds`. -/
def extend (n : Nat) (ds : List Char) : Nat := ds.foldl (fun n c => 10 * n + digitValue c) n

theorem value_cons (c : Char) (ds : List Char) : value (c :: ds) = extend (digitValue c) ds := by
  rw [value, List.foldl_cons, Nat.mul_zero, Nat.zero_add]
  rfl

theorem le_extend (n : Nat) (ds : List Char) : n ≤ extend n ds := by
  induction ds generalizing n with
  | nil => exact Nat.le_refl n
  | cons c ds ih => exact Nat.le_trans (by omega) (ih (10 * n + digitValue c))

theorem digitValue_le {c : Char} (h : isDigit c) : digitValue c ≤ 9 := by
  simp only [isDigit, Bool.and_eq_true, decide_eq_true_eq] at h
  have last : c.toNat ≤ 57 := h.2
  unfold digitValue
  omega

theorem extend_lt {n : Nat} {ds : List Char} (h : ∀ c ∈ ds, isDigit c) :
    extend n ds < (n + 1) * tenTo ds.length := by
  induction ds generalizing n with
  | nil => simp [extend, tenTo]
  | cons c ds ih =>
    have digit := digitValue_le (h c (.head ds))
    calc extend n (c :: ds) < (10 * n + digitValue c + 1) * tenTo ds.length :=
          ih fun d hd => h d (.tail c hd)
      _ ≤ (n + 1) * tenTo 1 * tenTo ds.length := by
          refine Nat.mul_le_mul_right _ ?_
          rw [show tenTo 1 = 10 from rfl]
          omega
      _ = (n + 1) * tenTo (ds.length + 1) := by rw [Nat.mul_assoc, ← tenTo_add, Nat.add_comm 1]

/-- A number below `10^k` has at most `k` digits. -/
theorem length_digits_le {n k : Nat} (hk : 0 < k) (h : n < tenTo k) : (digits n).length ≤ k := by
  induction n using digits.induct generalizing k with
  | case1 n small =>
    rw [digits, if_pos small]
    exact hk
  | case2 n large ih =>
    obtain ⟨k, rfl⟩ := Nat.exists_eq_add_one_of_ne_zero (Nat.ne_of_gt hk)
    have power : tenTo (k + 1) = tenTo k * 10 := rfl
    have positive : 0 < k := by
      refine Nat.pos_of_ne_zero fun zero => ?_
      rw [zero, show tenTo (0 + 1) = 10 from rfl] at h
      omega
    rw [digits, if_neg large, List.length_append]
    exact Nat.add_le_add_right (ih positive (by omega)) 1

end Decimal

namespace Json.Numeral

open Decimal

/-! ## Gathering -/

theorem gather_eq {s t : Nat} {ds : List Char} (h : extend s ds < UInt64.size) :
    gather s t ds = (extend s ds, t + ds.length, []) := by
  induction ds generalizing s t with
  | nil => rfl
  | cons c ds ih =>
    have fits : ¬ UInt64.size ≤ 10 * s + digitValue c :=
      Nat.not_le_of_lt (Nat.lt_of_le_of_lt (le_extend _ ds) h)
    rw [gather, if_neg fits, ih h, List.length_cons, Nat.add_right_comm, Nat.add_assoc]
    rfl

theorem le_gather (s t : Nat) (ds : List Char) : t ≤ (gather s t ds).2.1 := by
  induction ds generalizing s t with
  | nil => exact Nat.le_refl t
  | cons c ds ih =>
    rw [gather]
    split
    · exact Nat.le_refl t
    · exact Nat.le_trans (Nat.le_succ t) (ih _ _)

/-! ## Scaling -/

/-- Scaling down never fails. -/
theorem scale_isSome_of_neg (s : Nat) {e : Int} (h : e < 0) : (scale s e).isSome := by
  rw [scale, if_neg (by omega)]
  split <;> rfl

/-- Scaling up does not fail if the exact product is a little less than the largest number. -/
theorem scale_isSome {s : Nat} {e : Int} (nonneg : 0 ≤ e)
    (h : 2 * (s * tenTo e.toNat) ≤ (4 * Binary64.hiddenBit - 5) * 1 <<< 971) :
    (scale s e).isSome := by
  rw [scale, if_pos nonneg]
  split
  · rw [scaleUp, if_pos (Binary64.isFinite_mulMagnitudes_ofNat h)]
    rfl
  · split
    · rfl
    · rename_i large positive
      have top : (4 * Binary64.hiddenBit - 5) * 1 <<< 971 < 2 * tenTo 309 := by decide +kernel
      have power : tenTo 309 ≤ tenTo e.toNat := tenTo_le_tenTo (by omega)
      have product : tenTo e.toNat ≤ s * tenTo e.toNat :=
        Nat.le_mul_of_pos_left _ (Nat.pos_of_ne_zero positive)
      omega

/-- Nothing but zero can be scaled up further. -/
theorem le_of_scale_isSome {s : Nat} {e : Int} (hs : s ≠ 0) (h : (scale s e).isSome) : e ≤ 308 := by
  refine Int.not_lt.mp fun large => ?_
  rw [scale, if_pos (by omega), if_neg (Int.not_le.mpr large), if_neg hs] at h
  cases h

/-- An exponent that is not too large to be counted is added to the places of the digits. -/
theorem applyExponent_isSome {s : Nat} {places e : Int} (hplaces : places ≤ 0)
    (he : e ≤ exponentLimit) (h : 0 ≤ places + e → (scale s (places + e)).isSome) :
    (applyExponent s places (some (e < 0, digits e.natAbs))).isSome := by
  have exponent : (if decide (e < 0) then places - e.natAbs else places + e.natAbs) =
      places + e := by
    simp only [decide_eq_true_eq]
    split <;> omega
  simp only [applyExponent, value_digits, exponent]
  split
  · have negative : e < 0 := by omega
    simp [negative]
  · rcases Int.lt_or_le (places + e) 0 with below | above
    · refine scale_isSome_of_neg s ?_
      unfold clampExponent
      omega
    · have within : clampExponent (places + e) = places + e := by
        unfold clampExponent
        omega
      rw [within]
      exact h above

/-! ## Numerals -/

/-- Digits behind the point make the exponent negative, so nothing can be too large. -/
theorem magnitude_point_isSome {whole fraction : List Char}
    (hwhole : ∀ c ∈ whole, isDigit c) (short : whole.length ≤ 16)
    (hfraction : ∀ c ∈ fraction, isDigit c) (some : fraction ≠ []) :
    (magnitude ⟨false, whole, .some fraction, none⟩).isSome := by
  have small : extend 0 whole < tenTo 16 :=
    calc extend 0 whole < (0 + 1) * tenTo whole.length := extend_lt hwhole
      _ = tenTo whole.length := by rw [Nat.zero_add, Nat.one_mul]
      _ ≤ tenTo 16 := tenTo_le_tenTo short
  rw [show tenTo 16 = 10000000000000000 from rfl] at small
  have width : UInt64.size = 18446744073709551616 := rfl
  obtain ⟨d, ds, rfl⟩ := List.exists_cons_of_ne_nil some
  have digit := digitValue_le (hfraction d (.head ds))
  have fits : ¬ UInt64.size ≤ 10 * extend 0 whole + digitValue d := by omega
  have taken := le_gather (10 * extend 0 whole + digitValue d) 1 ds
  have all : gather 0 0 whole = (extend 0 whole, 0 + whole.length, []) :=
    gather_eq (by omega)
  simp only [magnitude, all, gather, if_neg fits, applyExponent, List.length_nil, Nat.zero_add]
  generalize gather (10 * extend 0 whole + digitValue d) 1 ds = gathered at taken ⊢
  obtain ⟨significand, count, rest⟩ := gathered
  have counted : 1 ≤ count := taken
  dsimp only
  exact scale_isSome_of_neg _ (by omega)

/-- One digit before the point, all others behind it: the digits are scaled as a whole. -/
theorem magnitude_exponent {d : Char} {ds : List Char}
    (fits : Decimal.value (d :: ds) < UInt64.size)
    (exponent : Option (Bool × List Char)) :
    magnitude ⟨false, [d], if ds = [] then none else some ds, exponent⟩ =
      applyExponent (Decimal.value (d :: ds)) (-ds.length) exponent := by
  rw [value_cons] at fits ⊢
  have first : gather 0 0 [d] = (digitValue d, 1, []) := by
    have one : extend 0 [d] = digitValue d := by simp [extend]
    have all : extend 0 [d] < UInt64.size := one ▸ Nat.lt_of_le_of_lt (le_extend _ ds) fits
    rw [gather_eq all, one]
    rfl
  by_cases none : ds = []
  · subst none
    simp [magnitude, first, extend]
  · simp [magnitude, first, none, gather_eq fits]

/-! ## Shortest decimals -/

/-- The shortest decimal of a finite number is scaled to a finite number. The interval of what
rounds to the number ends half a unit above it; only for the two largest numbers this is too much
for the bound on the errors, and they are looked at one by one. -/
theorem scale_shortest_isSome {m : Nat} {q : Int} (hm : m ≠ 0) (bound : m < 2 * Binary64.hiddenBit)
    (least : -1074 ≤ q) (most : q ≤ 971) (whole : 0 ≤ (shortest .even m q).exponent) :
    (scale (shortest .even m q).coefficient (shortest .even m q).exponent).isSome := by
  by_cases top : q = 971 ∧ 2 * Binary64.hiddenBit - 2 ≤ m
  · obtain ⟨rfl, large⟩ := top
    have two : m = 2 * Binary64.hiddenBit - 2 ∨ m = 2 * Binary64.hiddenBit - 1 := by omega
    rcases two with rfl | rfl
    · decide +kernel
    · decide +kernel
  · refine scale_isSome whole ?_
    have above := shortest_atMost .even hm bound least
    generalize shortest .even m q = s at whole above ⊢
    have none : (-s.exponent).toNat = 0 := by omega
    have bit : Binary64.hiddenBit = 4503599627370496 := rfl
    have interval : s.coefficient * tenTo s.exponent.toNat ≤ (4 * m + 2) * 1 <<< (q - 2).toNat := by
      have positive : 0 < 1 <<< (2 - q).toNat := Binary64.shiftLeft_pos (by decide)
      unfold Scaled.AtMost roundingInterval at above
      rw [none, show tenTo 0 = 1 from rfl, Nat.mul_one] at above
      exact Nat.le_trans (Nat.le_mul_of_pos_right _ positive) above
    have below : (4 * m + 2) * 1 <<< (q - 2).toNat ≤ (8 * Binary64.hiddenBit - 10) * 1 <<< 969 := by
      rcases Int.lt_or_eq_of_le most with small | rfl
      · have half : 1 <<< 969 = 2 * 1 <<< 968 := Nat.shiftLeft_succ 1 968
        rw [half, ← Nat.mul_assoc]
        exact Nat.mul_le_mul (by omega) (Binary64.shiftLeft_mono 1 (by omega))
      · exact Nat.mul_le_mul_right _ (by omega)
    have unit : 1 <<< 971 = 4 * 1 <<< 969 := by
      rw [Nat.shiftLeft_succ, Nat.shiftLeft_succ, ← Nat.mul_assoc]
    calc 2 * (s.coefficient * tenTo s.exponent.toNat)
        ≤ 2 * ((8 * Binary64.hiddenBit - 10) * 1 <<< 969) :=
          Nat.mul_le_mul_left 2 (Nat.le_trans interval below)
      _ = (4 * Binary64.hiddenBit - 5) * 1 <<< 971 := by
          rw [unit, show 8 * Binary64.hiddenBit - 10 = (4 * Binary64.hiddenBit - 5) * 2 by decide]
          ac_rfl

end Json.Numeral

end CapabilityGate
