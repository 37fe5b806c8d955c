import CapabilityGate.Decimal.Shortest
import CapabilityGate.Proofs.Binary64.Rounding

/-!
# The search for the shortest decimal succeeds

`shortest` tries grids with up to 17 digits and stops at the first one with a point in the rounding
interval. It always finds one: the start of the search for the decimal exponent lies low enough
(`reaches_start`), so a grid with 17 digits is finer than the interval is wide, and one of the two
grid points next to the number lies in it. Hence the digits never start with a zero
(`shortest_pos`) and the decimal is not above the interval (`shortest_atMost`). The search ends
early enough, too (`not_reaches_end`), so there are no more than 17 digits (`shortest_le`).
-/
namespace CapabilityGate.Decimal

theorem tenTo_pos (k : Nat) : 0 < tenTo k :=
  Nat.pow_pos (by decide)

theorem tenTo_le_tenTo {j k : Nat} (h : j ≤ k) : tenTo j ≤ tenTo k :=
  Nat.pow_le_pow_right (by decide) h

theorem tenTo_add (j k : Nat) : tenTo (j + k) = tenTo j * tenTo k :=
  Nat.pow_add 10 j k

/-! ## Powers of ten between powers of two -/

/-- 10^59 is below 2^196. -/
theorem tenTo_le_shiftLeft {j e : Nat} (h : 196 * j ≤ 59 * e) : tenTo j ≤ 1 <<< e := by
  rw [Nat.one_shiftLeft, ← Nat.pow_le_pow_iff_left (n := 59) (by decide)]
  calc (10 ^ j) ^ 59 = (10 ^ 59) ^ j := by rw [← Nat.pow_mul, ← Nat.pow_mul, Nat.mul_comm]
    _ ≤ (2 ^ 196) ^ j := Nat.pow_le_pow_left (by decide) j
    _ = 2 ^ (196 * j) := by rw [Nat.pow_mul]
    _ ≤ 2 ^ (59 * e) := Nat.pow_le_pow_right (by decide) h
    _ = (2 ^ e) ^ 59 := by rw [← Nat.pow_mul, Nat.mul_comm]

/-- 2^93 is below 10^28. -/
theorem shiftLeft_le_tenTo {e j : Nat} (h : 28 * e ≤ 93 * j) : 1 <<< e ≤ tenTo j := by
  rw [Nat.one_shiftLeft, ← Nat.pow_le_pow_iff_left (n := 93) (by decide)]
  calc (2 ^ e) ^ 93 = (2 ^ 93) ^ e := by rw [← Nat.pow_mul, ← Nat.pow_mul, Nat.mul_comm]
    _ ≤ (10 ^ 28) ^ e := Nat.pow_le_pow_left (by decide) e
    _ = 10 ^ (28 * e) := by rw [Nat.pow_mul]
    _ ≤ 10 ^ (93 * j) := Nat.pow_le_pow_right (by decide) h
    _ = (10 ^ j) ^ 93 := by rw [← Nat.pow_mul, Nat.mul_comm]

/-! ## The decimal exponent -/

/-- `10^k` is at most the quotient `a / d`. -/
def Reaches (a d : Nat) (k : Int) : Prop := d * tenTo k.toNat ≤ a * tenTo (-k).toNat

theorem Reaches.decimalExponent {a d : Nat} {e : Int} (h : Reaches a d (e - 1)) (fuel : Nat) :
    Reaches a d (decimalExponent a d fuel e - 1) := by
  induction fuel generalizing e with
  | zero => exact h
  | succ fuel ih =>
    rw [Decimal.decimalExponent]
    split
    · exact h
    · rename_i above
      refine ih ?_
      rw [Int.add_sub_cancel]
      exact Nat.le_of_not_lt above

theorem not_reaches_decimalExponent {a d : Nat} {e : Int} {fuel : Nat}
    (h : ¬ Reaches a d (e + fuel)) : ¬ Reaches a d (decimalExponent a d fuel e) := by
  induction fuel generalizing e with
  | zero =>
    rw [decimalExponent]
    rwa [Int.natCast_zero, Int.add_zero] at h
  | succ fuel ih =>
    rw [decimalExponent]
    split
    · rename_i below
      exact Nat.not_le_of_lt below
    · refine ih ?_
      rwa [show e + 1 + fuel = e + (fuel + 1 : Nat) by omega]

/-- The start of the search: `m · 2^q` is at least `2^E` for `E` the sum of the binary exponents,
and the bound for the decimal exponent is safe by one for every `E` that occurs. -/
theorem reaches_start {m : Nat} {q : Int} (hm : m ≠ 0) (hq : -1074 ≤ q) :
    Reaches (roundingInterval m q).num (roundingInterval m q).den
      (((m.log2 : Int) + q) * 30102 / 100000 - 1 - 1) := by
  obtain ⟨E, hE⟩ : ∃ E : Int, E = (m.log2 : Int) + q := ⟨_, rfl⟩
  obtain ⟨k, hk⟩ : ∃ k : Int, k = E * 30102 / 100000 - 1 - 1 := ⟨_, rfl⟩
  have binary : (roundingInterval m q).den * 1 <<< E.toNat ≤
      (roundingInterval m q).num * 1 <<< (-E).toNat := by
    simp only [roundingInterval, Nat.one_shiftLeft]
    calc 2 ^ (2 - q).toNat * 2 ^ E.toNat = 2 ^ 2 * 2 ^ m.log2 * 2 ^ (q - 2).toNat *
          2 ^ (-E).toNat := by
          simp only [← Nat.pow_add]
          congr 1
          omega
      _ ≤ 4 * m * 2 ^ (q - 2).toNat * 2 ^ (-E).toNat := by
          have low : 2 ^ 2 * 2 ^ m.log2 ≤ 4 * m := Nat.mul_le_mul_left 4 (Nat.log2_self_le hm)
          exact Nat.mul_le_mul_right _ (Nat.mul_le_mul_right _ low)
  rw [← hE, ← hk]
  unfold Reaches
  calc (roundingInterval m q).den * tenTo k.toNat
      ≤ (roundingInterval m q).den * 1 <<< E.toNat :=
        Nat.mul_le_mul_left _ (tenTo_le_shiftLeft (by omega))
    _ ≤ (roundingInterval m q).num * 1 <<< (-E).toNat := binary
    _ ≤ (roundingInterval m q).num * tenTo (-k).toNat :=
        Nat.mul_le_mul_left _ (shiftLeft_le_tenTo (by omega))

/-- The end of the search: `m · 2^q` is less than `2^(E+1)`, and eight steps are enough for every
`E` that occurs. -/
theorem not_reaches_end {m : Nat} {q : Int} (hm : m ≠ 0) (bound : m < 2 * Binary64.hiddenBit)
    (least : -1074 ≤ q) (most : q ≤ 971) :
    ¬ Reaches (roundingInterval m q).num (roundingInterval m q).den
      (((m.log2 : Int) + q) * 30102 / 100000 - 1 + (8 : Nat)) := by
  have bits : m.log2 < 53 := (Nat.log2_lt hm).mpr bound
  obtain ⟨E, hE⟩ : ∃ E : Int, E = (m.log2 : Int) + q := ⟨_, rfl⟩
  obtain ⟨k, hk⟩ : ∃ k : Int, k = E * 30102 / 100000 - 1 + (8 : Nat) := ⟨_, rfl⟩
  have binary : (roundingInterval m q).num * 1 <<< (-(E + 1)).toNat <
      (roundingInterval m q).den * 1 <<< (E + 1).toNat := by
    simp only [roundingInterval, Nat.one_shiftLeft]
    calc 4 * m * 2 ^ (q - 2).toNat * 2 ^ (-(E + 1)).toNat
        < 2 ^ 2 * 2 ^ (m.log2 + 1) * 2 ^ (q - 2).toNat * 2 ^ (-(E + 1)).toNat := by
          have high : 4 * m < 2 ^ 2 * 2 ^ (m.log2 + 1) :=
            Nat.mul_lt_mul_of_pos_left Nat.lt_log2_self (by decide)
          exact Nat.mul_lt_mul_of_pos_right (Nat.mul_lt_mul_of_pos_right high (Nat.two_pow_pos _))
            (Nat.two_pow_pos _)
      _ = 2 ^ (2 - q).toNat * 2 ^ (E + 1).toNat := by
          simp only [← Nat.pow_add]
          congr 1
          omega
  rw [← hE, ← hk]
  refine Nat.not_le_of_lt ?_
  calc (roundingInterval m q).num * tenTo (-k).toNat
      ≤ (roundingInterval m q).num * 1 <<< (-(E + 1)).toNat :=
        Nat.mul_le_mul_left _ (tenTo_le_shiftLeft (by omega))
    _ < (roundingInterval m q).den * 1 <<< (E + 1).toNat := binary
    _ ≤ (roundingInterval m q).den * tenTo k.toNat :=
        Nat.mul_le_mul_left _ (shiftLeft_le_tenTo (by omega))

/-! ## Grids -/

namespace Interval

variable {tie : Tie} {i : Interval} {k : Int}

theorem nearest_pos {c : Nat} (h : i.nearest tie k = some c) : 0 < c := by
  have found := List.find?_some h
  simp only [Bool.and_eq_true, decide_eq_true_eq] at found
  exact found.1

theorem contains_nearest {c : Nat} (h : i.nearest tie k = some c) : i.contains c k := by
  have found := List.find?_some h
  rw [Bool.and_eq_true] at found
  exact found.2

/-- Both candidates are next to the number, so `10^n` on the grid is not below them if it is above
the number. -/
theorem nearest_le {c n : Nat} (hden : 0 < i.den) (h : i.nearest tie k = some c)
    (above : ¬ Reaches i.num i.den (k + n)) : c ≤ tenTo n := by
  have next : c ≤ i.num * tenTo (-k).toNat / (i.den * tenTo k.toNat) + 1 := by
    have either : ∀ (x : Nat) (lowerFirst : Bool),
        (c ∈ if lowerFirst then [x, x + 1] else [x + 1, x]) → c ≤ x + 1 := by
      intro x lowerFirst hc
      cases lowerFirst <;> simp at hc <;> omega
    exact either _ _ (List.mem_of_find?_eq_some h)
  have powers : tenTo (k + n).toNat * tenTo (-k).toNat =
      tenTo n * tenTo k.toNat * tenTo (-(k + n)).toNat := by
    simp only [← tenTo_add]
    congr 1
    omega
  have quotient : i.num * tenTo (-k).toNat < tenTo n * (i.den * tenTo k.toNat) := by
    refine Nat.lt_of_mul_lt_mul_right (a := tenTo (-(k + n)).toNat) ?_
    calc i.num * tenTo (-k).toNat * tenTo (-(k + n)).toNat
        = i.num * tenTo (-(k + n)).toNat * tenTo (-k).toNat := Nat.mul_right_comm ..
      _ < i.den * tenTo (k + n).toNat * tenTo (-k).toNat :=
          Nat.mul_lt_mul_of_pos_right (Nat.lt_of_not_le above) (tenTo_pos _)
      _ = tenTo n * (i.den * tenTo k.toNat) * tenTo (-(k + n)).toNat := by
          rw [Nat.mul_assoc, powers]
          ac_rfl
  have below := (Nat.div_lt_iff_lt_mul (Nat.mul_pos hden (tenTo_pos k.toNat))).mpr quotient
  omega

/-- Both ends excluded, whether they belong to the interval or not. -/
theorem contains_of_lt {c : Nat} (low : i.low * tenTo (-k).toNat < c * (i.den * tenTo k.toNat))
    (high : c * (i.den * tenTo k.toNat) < i.high * tenTo (-k).toNat) : i.contains c k := by
  have point : c * tenTo k.toNat * i.den = c * (i.den * tenTo k.toNat) := by
    rw [Nat.mul_assoc, Nat.mul_comm (tenTo _)]
  unfold contains
  dsimp only
  rw [point]
  split
  · simp [Nat.le_of_lt low, Nat.le_of_lt high]
  · simp [low, high]

/-- A grid that is finer than the interval is wide has a point in it next to the number. -/
theorem nearest_isSome (hden : 0 < i.den) (below : i.low < i.num) (above : i.num < i.high)
    (fine : i.den * tenTo k.toNat < (i.high - i.low) * tenTo (-k).toNat) :
    (i.nearest tie k).isSome := by
  obtain ⟨u, hu⟩ : ∃ u, u = tenTo (-k).toNat := ⟨_, rfl⟩
  obtain ⟨d, hd⟩ : ∃ d, d = i.den * tenTo k.toNat := ⟨_, rfl⟩
  obtain ⟨c, hc⟩ : ∃ c, c = i.num * u / d := ⟨_, rfl⟩
  have hunit : 0 < u := hu ▸ tenTo_pos _
  have hgrid : 0 < d := hd ▸ Nat.mul_pos hden (tenTo_pos _)
  have atMost : c * d ≤ i.num * u := hc ▸ Nat.div_mul_le_self _ _
  have next : i.num * u < (c + 1) * d := by
    rw [hc, Nat.mul_comm _ d]
    exact Nat.lt_mul_div_succ _ hgrid
  have lower : i.low * u < i.num * u := Nat.mul_lt_mul_of_pos_right below hunit
  have upper : i.num * u < i.high * u := Nat.mul_lt_mul_of_pos_right above hunit
  rw [← hu, ← hd, Nat.sub_mul] at fine
  have hit : ∃ x, (x = c ∨ x = c + 1) ∧ i.low * u < x * d ∧ x * d < i.high * u := by
    by_cases inside : i.low * u < c * d
    · exact ⟨c, .inl rfl, inside, by omega⟩
    · refine ⟨c + 1, .inr rfl, by omega, ?_⟩
      rw [Nat.add_mul, Nat.one_mul]
      omega
  obtain ⟨x, near, low, high⟩ := hit
  have positive : 0 < x := Nat.pos_of_mul_pos_right (Nat.zero_lt_of_lt low)
  have inside : i.contains x k := contains_of_lt (by rwa [← hu, ← hd]) (by rwa [← hu, ← hd])
  have tried : ∀ lowerFirst : Bool, x ∈ if lowerFirst then [c, c + 1] else [c + 1, c] := by
    rcases near with rfl | rfl <;> intro lowerFirst <;> cases lowerFirst <;> simp
  unfold nearest
  dsimp only
  rw [← hu, ← hd, ← hc, List.find?_isSome]
  exact ⟨x, tried _, by simp [positive, inside]⟩

/-- If the last grid has a point, the search ends with a point of some grid. -/
theorem exists_firstHit {e : Int} {fuel n : Nat}
    (h : (i.nearest tie (e - (fuel + n : Nat))).isSome) :
    ∃ c j, j ≤ fuel + n ∧ i.nearest tie (e - j) = some c ∧
      i.firstHit tie e fuel n = ⟨c, e - j⟩ := by
  induction fuel generalizing n with
  | zero =>
    rw [Nat.zero_add] at h
    obtain ⟨c, hc⟩ := Option.isSome_iff_exists.mp h
    exact ⟨c, n, Nat.le_add_left n 0, hc, by rw [firstHit, hc, Option.getD_some]⟩
  | succ fuel ih =>
    rw [firstHit]
    split
    · rename_i c hc
      exact ⟨c, n, Nat.le_add_left n _, hc, rfl⟩
    · rw [Nat.add_right_comm, Nat.add_assoc] at h ⊢
      exact ih h

end Interval

namespace Scaled

variable {s : Scaled} {num den : Nat}

theorem normalize_pos (h : 0 < s.coefficient) (fuel : Nat) :
    0 < (s.normalize fuel).coefficient := by
  induction fuel generalizing s with
  | zero => exact h
  | succ fuel ih =>
    rw [normalize]
    split
    · exact ih (s := ⟨s.coefficient / 10, s.exponent + 1⟩) (by simp only; omega)
    · exact h

theorem normalize_le (s : Scaled) (fuel : Nat) :
    (s.normalize fuel).coefficient ≤ s.coefficient := by
  induction fuel generalizing s with
  | zero => exact Nat.le_refl _
  | succ fuel ih =>
    rw [normalize]
    split
    · exact Nat.le_trans (ih _) (Nat.div_le_self ..)
    · exact Nat.le_refl _

/-- **`s.AtMost num den`** — the decimal is at most `num / den`. -/
def AtMost (s : Scaled) (num den : Nat) : Prop :=
  s.coefficient * tenTo s.exponent.toNat * den ≤ num * tenTo (-s.exponent).toNat

/-- A zero at the end of the digits counts as much in the exponent. -/
theorem AtMost.normalize (h : s.AtMost num den) (fuel : Nat) :
    (s.normalize fuel).AtMost num den := by
  induction fuel generalizing s with
  | zero => exact h
  | succ fuel ih =>
    rw [Scaled.normalize]
    split
    · rename_i zero
      refine ih ?_
      have digits : s.coefficient = s.coefficient / 10 * tenTo 1 := by
        rw [show tenTo 1 = 10 from rfl]
        omega
      have powers : tenTo 1 * tenTo s.exponent.toNat * tenTo (-(s.exponent + 1)).toNat =
          tenTo (s.exponent + 1).toNat * tenTo (-s.exponent).toNat := by
        simp only [← tenTo_add]
        congr 1
        omega
      refine Nat.le_of_mul_le_mul_right ?_ (tenTo_pos (-s.exponent).toNat)
      unfold AtMost at h
      rw [digits] at h
      dsimp only
      generalize s.coefficient / 10 = c at h ⊢
      calc c * tenTo (s.exponent + 1).toNat * den * tenTo (-s.exponent).toNat
          = c * (tenTo (s.exponent + 1).toNat * tenTo (-s.exponent).toNat) * den := by ac_rfl
        _ = c * tenTo 1 * tenTo s.exponent.toNat * den * tenTo (-(s.exponent + 1)).toNat := by
            rw [← powers]
            ac_rfl
        _ ≤ num * tenTo (-s.exponent).toNat * tenTo (-(s.exponent + 1)).toNat :=
            Nat.mul_le_mul_right _ h
        _ = num * tenTo (-(s.exponent + 1)).toNat * tenTo (-s.exponent).toNat :=
            Nat.mul_right_comm ..
    · exact h

end Scaled

theorem Interval.atMost_of_contains {i : Interval} {c : Nat} {k : Int} (h : i.contains c k) :
    Scaled.AtMost ⟨c, k⟩ i.high i.den := by
  unfold contains at h
  dsimp only at h
  split at h
  · simp only [Bool.and_eq_true, decide_eq_true_eq] at h
    exact h.2
  · simp only [Bool.and_eq_true, decide_eq_true_eq] at h
    exact Nat.le_of_lt h.2

/-! ## Seventeen digits -/

section RoundingInterval

variable {m : Nat} {q : Int}

theorem den_roundingInterval_pos : 0 < (roundingInterval m q).den :=
  Binary64.shiftLeft_pos Nat.one_ne_zero

theorem low_lt_num (hm : m ≠ 0) : (roundingInterval m q).low < (roundingInterval m q).num := by
  refine Nat.mul_lt_mul_of_pos_right ?_ (Binary64.shiftLeft_pos Nat.one_ne_zero)
  split <;> omega

theorem num_lt_high : (roundingInterval m q).num < (roundingInterval m q).high :=
  Nat.mul_lt_mul_of_pos_right (by omega) (Binary64.shiftLeft_pos Nat.one_ne_zero)

/-- The interval is three quarters or one unit of the last place wide. A significand of 53 bits,
counted in quarters, is smaller than so many times `10^16`. -/
theorem num_lt_width (bound : m < 2 * Binary64.hiddenBit) :
    (roundingInterval m q).num <
      ((roundingInterval m q).high - (roundingInterval m q).low) * tenTo 16 := by
  have digits : tenTo 16 = 10000000000000000 := rfl
  have bit : Binary64.hiddenBit = 4503599627370496 := rfl
  simp only [roundingInterval]
  rw [← Nat.sub_mul, Nat.mul_right_comm _ _ (tenTo 16)]
  refine Nat.mul_lt_mul_of_pos_right ?_ (Binary64.shiftLeft_pos Nat.one_ne_zero)
  rw [digits]
  split <;> omega

/-- The grid with 17 digits is finer than the interval is wide. -/
theorem fine_of_reaches {e : Int} (bound : m < 2 * Binary64.hiddenBit)
    (h : Reaches (roundingInterval m q).num (roundingInterval m q).den (e - 1)) :
    (roundingInterval m q).den * tenTo (e - 17).toNat <
      ((roundingInterval m q).high - (roundingInterval m q).low) * tenTo (-(e - 17)).toNat := by
  generalize hden : (roundingInterval m q).den = den at h ⊢
  have wide := num_lt_width (q := q) bound
  generalize (roundingInterval m q).high - (roundingInterval m q).low = width at wide ⊢
  generalize (roundingInterval m q).num = num at h wide
  have powers : tenTo (e - 1).toNat * tenTo (-(e - 17)).toNat =
      tenTo (e - 17).toNat * tenTo 16 * tenTo (-(e - 1)).toNat := by
    simp only [← tenTo_add]
    congr 1
    omega
  have scaled : den * tenTo (e - 17).toNat * tenTo 16 ≤ num * tenTo (-(e - 17)).toNat := by
    refine Nat.le_of_mul_le_mul_right ?_ (tenTo_pos (-(e - 1)).toNat)
    calc den * tenTo (e - 17).toNat * tenTo 16 * tenTo (-(e - 1)).toNat
        = den * tenTo (e - 1).toNat * tenTo (-(e - 17)).toNat := by
          rw [Nat.mul_assoc den, Nat.mul_assoc den, ← powers, Nat.mul_assoc]
      _ ≤ num * tenTo (-(e - 1)).toNat * tenTo (-(e - 17)).toNat := Nat.mul_le_mul_right _ h
      _ = num * tenTo (-(e - 17)).toNat * tenTo (-(e - 1)).toNat := Nat.mul_right_comm ..
  refine Nat.lt_of_mul_lt_mul_right (a := tenTo 16) ?_
  calc den * tenTo (e - 17).toNat * tenTo 16 ≤ num * tenTo (-(e - 17)).toNat := scaled
    _ < width * tenTo 16 * tenTo (-(e - 17)).toNat := Nat.mul_lt_mul_of_pos_right wide (tenTo_pos _)
    _ = width * tenTo (-(e - 17)).toNat * tenTo 16 := Nat.mul_right_comm ..

/-- The shortest decimal is a point of a grid with at most 17 digits, next to the number. -/
theorem exists_shortest (tie : Tie) (hm : m ≠ 0) (bound : m < 2 * Binary64.hiddenBit)
    (least : -1074 ≤ q) : ∃ (e : Int) (c j : Nat), j ≤ 17 ∧
      (roundingInterval m q).nearest tie (e - j) = some c ∧
      (q ≤ 971 → ¬ Reaches (roundingInterval m q).num (roundingInterval m q).den e) ∧
      shortest tie m q = Scaled.normalize 20 ⟨c, e - j⟩ := by
  have start := (reaches_start hm least).decimalExponent 8
  have last := fun most => not_reaches_decimalExponent (not_reaches_end hm bound least most)
  unfold shortest
  dsimp only
  generalize decimalExponent _ _ 8 _ = e at start last ⊢
  have found : ((roundingInterval m q).nearest tie (e - (16 + 1 : Nat))).isSome :=
    Interval.nearest_isSome den_roundingInterval_pos (low_lt_num hm) num_lt_high
      (fine_of_reaches bound start)
  obtain ⟨c, j, hj, hit, eq⟩ := Interval.exists_firstHit found
  exact ⟨e, c, j, hj, hit, last, by rw [eq]⟩

/-- **Every number has digits.** The coefficient of the shortest decimal is not zero. -/
theorem shortest_pos (tie : Tie) (hm : m ≠ 0) (bound : m < 2 * Binary64.hiddenBit)
    (least : -1074 ≤ q) : 0 < (shortest tie m q).coefficient := by
  obtain ⟨e, c, j, -, hit, -, eq⟩ := exists_shortest tie hm bound least
  rw [eq]
  exact Scaled.normalize_pos (Interval.nearest_pos hit) 20

/-- Seventeen digits are enough. -/
theorem shortest_le (tie : Tie) (hm : m ≠ 0) (bound : m < 2 * Binary64.hiddenBit)
    (least : -1074 ≤ q) (most : q ≤ 971) : (shortest tie m q).coefficient ≤ tenTo 17 := by
  obtain ⟨e, c, j, hj, hit, above, eq⟩ := exists_shortest tie hm bound least
  have digits : c ≤ tenTo j := Interval.nearest_le den_roundingInterval_pos hit (by
    rw [Int.sub_add_cancel]
    exact above most)
  rw [eq]
  calc (Scaled.normalize 20 ⟨c, e - j⟩).coefficient ≤ c := Scaled.normalize_le _ 20
    _ ≤ tenTo j := digits
    _ ≤ tenTo 17 := tenTo_le_tenTo hj

/-- The shortest decimal is not above the numbers that round to `m · 2^q`. -/
theorem shortest_atMost (tie : Tie) (hm : m ≠ 0) (bound : m < 2 * Binary64.hiddenBit)
    (least : -1074 ≤ q) :
    (shortest tie m q).AtMost (roundingInterval m q).high (roundingInterval m q).den := by
  obtain ⟨e, c, j, -, hit, -, eq⟩ := exists_shortest tie hm bound least
  rw [eq]
  exact (Interval.atMost_of_contains (Interval.contains_nearest hit)).normalize 20

end RoundingInterval

end CapabilityGate.Decimal
