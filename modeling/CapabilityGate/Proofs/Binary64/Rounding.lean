import CapabilityGate.Binary64

/-!
# How large a rounded number is

`ofRatio` picks the unit of the last place so that the quotient, counted in units, has at most 53
bits (`below_unitExponent`), and exactly 53 unless the unit is the least one
(`not_below_unitExponent`). Two facts follow. A quotient less than half a unit above the largest
number is rounded to a finite one (`isFinite_ofRatio`), and rounding a natural number enlarges it by
at most one part in `2^53` (`toRatio_ofNat_le`). Together they bound a product of two rounded
numbers: `isFinite_mulMagnitudes_ofNat`.
-/
namespace CapabilityGate.Binary64

/-! ## The nearest integer -/

section DivNearestEven

variable {a d n : Nat}

/-- The nearest integer is at most half a divisor off. -/
theorem divNearestEven_mul_le (hd : 0 < d) : 2 * (divNearestEven a d * d) ≤ 2 * a + d := by
  have whole : a / d * d + a % d = a := by rw [Nat.mul_comm, Nat.div_add_mod]
  have rest : a % d < d := Nat.mod_lt a hd
  unfold divNearestEven
  dsimp only
  split
  · omega
  · split
    · rw [Nat.add_mul, Nat.one_mul]
      omega
    · -- A tie goes up by one or not at all.
      have parity : a / d % 2 * d ≤ 1 * d := Nat.mul_le_mul_right d (by omega)
      rw [Nat.add_mul]
      omega

theorem divNearestEven_le (hd : 0 < d) (h : 2 * a < (2 * n + 1) * d) : divNearestEven a d ≤ n := by
  have close := divNearestEven_mul_le (a := a) hd
  have bound : 2 * (divNearestEven a d * d) < 2 * ((n + 1) * d) := by
    rw [Nat.add_mul, Nat.one_mul, Nat.mul_assoc] at h
    rw [Nat.add_mul, Nat.one_mul]
    omega
  exact Nat.lt_succ_iff.mp (Nat.lt_of_mul_lt_mul_right (Nat.lt_of_mul_lt_mul_left bound))

theorem le_divNearestEven (hd : 0 < d) (h : n * d ≤ a) : n ≤ divNearestEven a d := by
  have whole : n ≤ a / d := (Nat.le_div_iff_mul_le hd).mpr h
  unfold divNearestEven
  dsimp only
  split
  · exact whole
  · split <;> omega

end DivNearestEven

/-! ## Quotients and powers of two -/

theorem shiftLeft_pos {n k : Nat} (hn : n ≠ 0) : 0 < n <<< k := by
  rw [Nat.shiftLeft_eq]
  exact Nat.mul_pos (Nat.pos_of_ne_zero hn) (Nat.two_pow_pos k)

theorem shiftLeft_mono (n : Nat) {j k : Nat} (h : j ≤ k) : n <<< j ≤ n <<< k := by
  rw [Nat.shiftLeft_eq, Nat.shiftLeft_eq]
  exact Nat.mul_le_mul_left n (Nat.pow_le_pow_right (by decide) h)

/-- **`Below a d k`** — the quotient `a / d` is less than `2^k`. -/
def Below (a d : Nat) (k : Int) : Prop := a <<< (-k).toNat < d <<< k.toNat

instance (a d : Nat) (k : Int) : Decidable (Below a d k) := inferInstanceAs (Decidable (_ < _))

section Below

variable {a d x y : Nat} {k l : Int}

/-- Only the difference of the two shifts matters. -/
theorem below_iff (h : (y : Int) - x = k) : Below a d k ↔ a <<< x < d <<< y := by
  have shifts : (-k).toNat + y = k.toNat + x := by omega
  simp only [Below, Nat.shiftLeft_eq]
  rw [← Nat.mul_lt_mul_right (Nat.two_pow_pos y), ← Nat.mul_lt_mul_right (Nat.two_pow_pos k.toNat)
    (b := a * 2 ^ x)]
  simp only [Nat.mul_assoc, ← Nat.pow_add]
  rw [shifts, Nat.add_comm x, Nat.add_comm y]

theorem Below.mono (h : Below a d k) (hkl : k ≤ l) : Below a d l := by
  rw [below_iff (x := (-k).toNat) (y := k.toNat + (l - k).toNat) (by omega)]
  exact Nat.lt_of_lt_of_le h (shiftLeft_mono d (Nat.le_add_right _ _))

theorem below_log2 (hd : d ≠ 0) : Below a d ((a.log2 : Int) - d.log2 + 1) := by
  rw [below_iff (x := d.log2) (y := a.log2 + 1) (by omega)]
  simp only [Nat.shiftLeft_eq]
  calc a * 2 ^ d.log2 < 2 ^ (a.log2 + 1) * 2 ^ d.log2 :=
        Nat.mul_lt_mul_of_pos_right Nat.lt_log2_self (Nat.two_pow_pos _)
    _ ≤ 2 ^ (a.log2 + 1) * d := Nat.mul_le_mul_left _ (Nat.log2_self_le hd)
    _ = d * 2 ^ (a.log2 + 1) := Nat.mul_comm ..

theorem not_below_log2 (ha : a ≠ 0) : ¬ Below a d ((a.log2 : Int) - d.log2 - 1) := by
  rw [below_iff (x := d.log2 + 1) (y := a.log2) (by omega), Nat.not_lt]
  simp only [Nat.shiftLeft_eq]
  calc d * 2 ^ a.log2 ≤ 2 ^ (d.log2 + 1) * a :=
        Nat.mul_le_mul (Nat.le_of_lt Nat.lt_log2_self) (Nat.log2_self_le ha)
    _ = a * 2 ^ (d.log2 + 1) := Nat.mul_comm ..

end Below

/-! ## The unit of the last place -/

section UnitExponent

variable {a d : Nat}

/-- The exponent of the unit is one of two candidates, unless it is the least. -/
theorem unitExponent_eq (a d : Nat) : ∃ p, unitExponent a d = max p (-1074) ∧
    ((p = (a.log2 : Int) - d.log2 - 53 ∧ Below a d (p + 53)) ∨
      (p = (a.log2 : Int) - d.log2 - 52 ∧ ¬ Below a d (p + 52))) := by
  unfold unitExponent
  dsimp only
  split
  · rename_i below
    exact ⟨_, rfl, .inl ⟨rfl, of_decide_eq_true below⟩⟩
  · rename_i above
    refine ⟨_, rfl, .inr ⟨by omega, fun below => above (decide_eq_true ?_)⟩⟩
    rwa [show (a.log2 : Int) - d.log2 - 53 + 1 + 52 = a.log2 - d.log2 - 53 + 53 by omega] at below

theorem below_unitExponent (hd : d ≠ 0) : Below a d (unitExponent a d + 53) := by
  obtain ⟨p, eq, ⟨-, below⟩ | ⟨rfl, -⟩⟩ := unitExponent_eq a d
  · exact below.mono (by omega)
  · exact (below_log2 hd).mono (by omega)

theorem not_below_unitExponent (ha : a ≠ 0) (normal : unitExponent a d ≠ -1074) :
    ¬ Below a d (unitExponent a d + 52) := by
  obtain ⟨p, eq, ⟨rfl, -⟩ | ⟨-, above⟩⟩ := unitExponent_eq a d
  · rw [show unitExponent a d + 52 = (a.log2 : Int) - d.log2 - 1 by omega]
    exact not_below_log2 ha
  · rwa [show unitExponent a d = p by omega]

theorem least_le_unitExponent (a d : Nat) : -1074 ≤ unitExponent a d :=
  Int.le_max_right _ _

/-- Counted in units, a quotient. -/
theorem below_units {p : Int} {bits : Nat} :
    Below a d (p + bits) ↔ a <<< (-p).toNat < d <<< p.toNat * 1 <<< bits := by
  rw [below_iff (x := (-p).toNat) (y := p.toNat + bits) (by omega), Nat.one_shiftLeft,
    Nat.shiftLeft_eq d, Nat.shiftLeft_eq d, Nat.mul_assoc, ← Nat.pow_add]

/-- **`significand a d`** — the quotient counted in units and rounded. -/
def significand (a d : Nat) : Nat :=
  divNearestEven (a <<< (-unitExponent a d).toNat) (d <<< (unitExponent a d).toNat)

theorem significand_le (hd : d ≠ 0) : significand a d ≤ 2 * hiddenBit := by
  have units : a <<< (-unitExponent a d).toNat < d <<< (unitExponent a d).toNat * 1 <<< 53 :=
    below_units.mp (below_unitExponent hd)
  refine divNearestEven_le (shiftLeft_pos hd) ?_
  rw [show 1 <<< 53 = 2 * hiddenBit from rfl, Nat.mul_comm] at units
  calc 2 * a <<< (-unitExponent a d).toNat
      < 2 * (2 * hiddenBit * d <<< (unitExponent a d).toNat) :=
        Nat.mul_lt_mul_of_pos_left units (by decide)
    _ = 2 * (2 * hiddenBit) * d <<< (unitExponent a d).toNat := (Nat.mul_assoc ..).symm
    _ ≤ (2 * (2 * hiddenBit) + 1) * d <<< (unitExponent a d).toNat :=
        Nat.mul_le_mul_right _ (Nat.le_succ _)

/-- Unless the unit is the least one, the quotient has all its bits. -/
theorem units_of_normal (ha : a ≠ 0) (normal : unitExponent a d ≠ -1074) :
    hiddenBit * d <<< (unitExponent a d).toNat ≤ a <<< (-unitExponent a d).toNat := by
  have units := not_below_unitExponent ha normal
  rw [show (52 : Int) = (52 : Nat) from rfl, below_units, Nat.not_lt, Nat.mul_comm] at units
  exact units

/-- The rounded quotient by its unit and its significand. -/
theorem ofRatio_of_ne_zero (ha : a ≠ 0) (negative : Bool) :
    ofRatio negative a d = ofMagnitude negative (min
      (if significand a d < hiddenBit then significand a d
        else (unitExponent a d + 1074).toNat * hiddenBit + significand a d)
      infiniteMagnitude) := by
  rw [ofRatio, if_neg ha]
  rfl

end UnitExponent

/-! ## Finite numbers -/

theorem magnitude_ofMagnitude {magnitude : Nat} (h : magnitude < signBit) (negative : Bool) :
    (ofMagnitude negative magnitude).magnitude = magnitude := by
  have bit : signBit = 9223372036854775808 := rfl
  unfold Binary64.magnitude ofMagnitude
  rw [bit] at h ⊢
  cases negative <;> simp <;> omega

theorem isFinite_ofMagnitude {magnitude : Nat} (h : magnitude < infiniteMagnitude)
    (negative : Bool) : (ofMagnitude negative magnitude).isFinite := by
  have representable : infiniteMagnitude < signBit := by decide
  rw [isFinite, magnitude_ofMagnitude (Nat.lt_trans h representable)]
  exact decide_eq_true h

/-- What is less than half a unit above the largest number is rounded to a finite one. -/
theorem isFinite_ofRatio {a d : Nat} (hd : d ≠ 0)
    (h : 2 * a < (4 * hiddenBit - 1) * d <<< 971) (negative : Bool) :
    (ofRatio negative a d).isFinite := by
  have bit : hiddenBit = 4503599627370496 := rfl
  have infinite : infiniteMagnitude = 2047 * hiddenBit := rfl
  by_cases ha : a = 0
  · rw [ha, ofRatio, if_pos rfl, zero]
    exact isFinite_ofMagnitude (by decide) negative
  have least := least_le_unitExponent a d
  have most : unitExponent a d ≤ 971 := by
    refine Int.not_lt.mp fun large => not_below_unitExponent (d := d) ha (by omega)
      (Below.mono (k := 971 + (53 : Nat)) (below_units.mpr ?_) (by omega))
    refine Nat.lt_of_mul_lt_mul_left (a := 2) ?_
    calc 2 * a < (4 * hiddenBit - 1) * d <<< 971 := h
      _ ≤ 4 * hiddenBit * d <<< 971 := Nat.mul_le_mul_right _ (Nat.sub_le ..)
      _ = 2 * (d <<< 971 * (2 * hiddenBit)) := by
          rw [show 4 * hiddenBit = 2 * (2 * hiddenBit) by decide, Nat.mul_assoc,
            Nat.mul_comm (2 * hiddenBit)]
  have significand : significand a d ≤ 2 * hiddenBit ∧
      (unitExponent a d = 971 → significand a d ≤ 2 * hiddenBit - 1) := by
    refine ⟨significand_le hd, fun largest => ?_⟩
    rw [Binary64.significand, largest]
    refine divNearestEven_le (shiftLeft_pos hd) ?_
    rw [show 2 * (2 * hiddenBit - 1) + 1 = 4 * hiddenBit - 1 by omega]
    exact h
  rw [ofRatio_of_ne_zero ha]
  refine isFinite_ofMagnitude ?_ negative
  rw [infinite, bit] at *
  split <;> omega

/-! ## Natural numbers -/

/-- A number with a hidden bit as a quotient. -/
theorem toRatio_ofMagnitude {field fraction : Nat} (normal : 1 ≤ field) (finite : field < 2047)
    (h : fraction < hiddenBit) (negative : Bool) :
    (ofMagnitude negative (field * hiddenBit + fraction)).toRatio =
      ((hiddenBit + fraction) <<< ((field : Int) - 1075).toNat,
        1 <<< (-((field : Int) - 1075)).toNat) := by
  have bound : field * hiddenBit + fraction < signBit := by
    have bit : hiddenBit = 4503599627370496 := rfl
    have sign : signBit = 9223372036854775808 := rfl
    rw [bit] at h
    rw [bit, sign]
    omega
  have magnitude := magnitude_ofMagnitude bound negative
  have exponentField : (ofMagnitude negative (field * hiddenBit + fraction)).exponentField =
      field := by
    rw [Binary64.exponentField, magnitude, Nat.mul_comm, Nat.mul_add_div (by decide),
      Nat.div_eq_of_lt h, Nat.add_zero]
  have fractionField : (ofMagnitude negative (field * hiddenBit + fraction)).fraction =
      fraction := by
    rw [Binary64.fraction, magnitude, Nat.mul_comm, Nat.mul_add_mod, Nat.mod_eq_of_lt h]
  rw [toRatio, view, if_neg (by omega), if_neg (by omega), exponentField, fractionField]

theorem toRatio_snd_pos (x : Binary64) : 0 < x.toRatio.2 := by
  unfold toRatio
  split
  · exact shiftLeft_pos (by decide)
  · exact Nat.one_pos

/-- A significand of `2^53` carries into the exponent, and the number stays the same. -/
theorem toRatio_units {p : Int} {m : Nat} (least : -1074 ≤ p) (low : hiddenBit ≤ m)
    (high : m ≤ 2 * hiddenBit)
    (finite : (p + 1074).toNat * hiddenBit + m < infiniteMagnitude) {negative : Bool}
    {r : Nat × Nat}
    (value : (ofMagnitude negative ((p + 1074).toNat * hiddenBit + m)).toRatio = r) :
    r.1 * 1 <<< (-p).toNat = m <<< p.toNat * r.2 := by
  obtain ⟨e, he⟩ : ∃ e, e = (p + 1075).toNat := ⟨_, rfl⟩
  have previous : (p + 1074).toNat = e - 1 := by omega
  have positive : 1 ≤ e := by omega
  have back : p = (e : Int) - 1075 := by omega
  have infinite : infiniteMagnitude = 2047 * hiddenBit := rfl
  rw [previous, Nat.sub_mul, Nat.one_mul, infinite] at finite
  rw [previous, Nat.sub_mul, Nat.one_mul] at value
  have step : hiddenBit ≤ e * hiddenBit := Nat.le_mul_of_pos_left _ positive
  rcases Nat.lt_or_eq_of_le high with small | carry
  · have shape : e * hiddenBit - hiddenBit + m = e * hiddenBit + (m - hiddenBit) := by omega
    have bound : e < 2047 := Nat.lt_of_mul_lt_mul_right (a := hiddenBit) (by omega)
    have fraction : m - hiddenBit < hiddenBit := by omega
    rw [shape, toRatio_ofMagnitude positive bound fraction, ← back,
      Nat.add_sub_cancel' low] at value
    rw [← value]
  · have shape : e * hiddenBit - hiddenBit + m = (e + 1) * hiddenBit + 0 := by
      rw [Nat.add_mul, Nat.one_mul]
      omega
    have bound : e + 1 < 2047 := Nat.lt_of_mul_lt_mul_right (a := hiddenBit) (by omega)
    have next : ((e + 1 : Nat) : Int) - 1075 = p + 1 := by omega
    rw [shape, toRatio_ofMagnitude (Nat.le_add_left 1 e) bound (Nat.two_pow_pos 52), next] at value
    have exponents : (p + 1).toNat + (-p).toNat = p.toNat + (-(p + 1)).toNat + 1 := by omega
    rw [← value, carry]
    simp only [Nat.shiftLeft_eq, Nat.one_mul, Nat.add_zero]
    rw [Nat.mul_comm 2, Nat.mul_assoc, Nat.mul_assoc, Nat.mul_assoc, ← Nat.pow_add, ← Nat.pow_add,
      ← Nat.pow_succ', exponents]

theorem toRatio_infinite (negative : Bool) :
    (ofMagnitude negative infiniteMagnitude).toRatio = (0, 1) := by
  cases negative <;> decide

/-- **Rounding a natural number adds at most one part in `2^53`.** -/
theorem toRatio_ofNat_le (n : Nat) :
    (ofNat n).toRatio.1 * (2 * hiddenBit) ≤ n * (2 * hiddenBit + 1) * (ofNat n).toRatio.2 := by
  by_cases hn : n = 0
  · have zero : (ofNat 0).toRatio.1 = 0 := by decide
    rw [hn, zero, Nat.zero_mul]
    exact Nat.zero_le _
  obtain ⟨p, hp⟩ : ∃ p, p = unitExponent n 1 := ⟨_, rfl⟩
  obtain ⟨m, hm⟩ : ∃ m, m = significand n 1 := ⟨_, rfl⟩
  -- A natural number is large enough to have all its bits.
  have normal : unitExponent n 1 ≠ -1074 := by
    obtain ⟨p, eq, large⟩ := unitExponent_eq n 1
    have one : Nat.log2 1 = 0 := by decide
    rw [one] at large
    omega
  have units := units_of_normal (d := 1) hn normal
  have low : hiddenBit ≤ m := hm ▸ le_divNearestEven (shiftLeft_pos (by decide)) units
  have high : m ≤ 2 * hiddenBit := hm ▸ significand_le (by decide)
  have close : m * 1 <<< p.toNat * (2 * hiddenBit) ≤ n <<< (-p).toNat * (2 * hiddenBit + 1) := by
    have half := divNearestEven_mul_le (a := n <<< (-p).toNat)
      (shiftLeft_pos (n := 1) (k := p.toNat) (by decide))
    rw [← hp] at units
    have rounded : divNearestEven (n <<< (-p).toNat) (1 <<< p.toNat) = m := by
      rw [hm, significand, ← hp]
    rw [rounded] at half
    generalize m * 1 <<< p.toNat = v at half ⊢
    generalize n <<< (-p).toNat = exact at half units ⊢
    generalize 1 <<< p.toNat = unit at half units
    -- Half a unit is at most one part in `2^53` of a number that has all its bits.
    calc v * (2 * hiddenBit) = hiddenBit * (2 * v) := by rw [Nat.mul_comm v]; ac_rfl
      _ ≤ hiddenBit * (2 * exact + unit) := Nat.mul_le_mul_left _ half
      _ = exact * (2 * hiddenBit) + hiddenBit * unit := by rw [Nat.mul_add]; ac_rfl
      _ ≤ exact * (2 * hiddenBit + 1) := by rw [Nat.mul_add, Nat.mul_one]; omega
  rw [ofNat, ofRatio_of_ne_zero hn, ← hp, ← hm, if_neg (Nat.not_lt.mpr low)]
  rcases Nat.lt_or_ge ((p + 1074).toNat * hiddenBit + m) infiniteMagnitude with finite | infinite
  · have least := least_le_unitExponent n 1
    rw [Nat.min_eq_left (Nat.le_of_lt finite)]
    generalize hr : (ofMagnitude false _).toRatio = r
    have value := toRatio_units (by omega) low high finite hr
    refine Nat.le_of_mul_le_mul_right ?_ (shiftLeft_pos (n := 1) (k := (-p).toNat) (by decide))
    calc r.1 * (2 * hiddenBit) * 1 <<< (-p).toNat
        = m <<< p.toNat * r.2 * (2 * hiddenBit) := by rw [Nat.mul_right_comm, value]
      _ = m * 1 <<< p.toNat * (2 * hiddenBit) * r.2 := by
          rw [Nat.mul_right_comm, Nat.one_shiftLeft, ← Nat.shiftLeft_eq]
      _ ≤ n <<< (-p).toNat * (2 * hiddenBit + 1) * r.2 := Nat.mul_le_mul_right _ close
      _ = n * (2 * hiddenBit + 1) * r.2 * 1 <<< (-p).toNat := by
          simp only [Nat.shiftLeft_eq, Nat.one_mul]
          ac_rfl
  · rw [Nat.min_eq_right infinite, toRatio_infinite, Nat.zero_mul]
    exact Nat.zero_le _

/-- **A product of two rounded numbers is finite** if the exact one is a little less than the
largest number. -/
theorem isFinite_mulMagnitudes_ofNat {n k : Nat}
    (h : 2 * (n * k) ≤ (4 * hiddenBit - 5) * 1 <<< 971) :
    ((ofNat n).mulMagnitudes (ofNat k)).isFinite := by
  have first := toRatio_ofNat_le n
  have second := toRatio_ofNat_le k
  have firstPos := toRatio_snd_pos (ofNat n)
  have secondPos := toRatio_snd_pos (ofNat k)
  unfold mulMagnitudes
  generalize (ofNat n).toRatio = r at first firstPos ⊢
  generalize (ofNat k).toRatio = s at second secondPos ⊢
  have positive : 0 < r.2 * s.2 := Nat.mul_pos firstPos secondPos
  refine isFinite_ofRatio (Nat.ne_of_gt positive) ?_ false
  have both := Nat.mul_le_mul first second
  -- The two errors together are less than the three units between the bounds.
  have margin : (4 * hiddenBit - 5) * ((2 * hiddenBit + 1) * (2 * hiddenBit + 1)) <
      (4 * hiddenBit - 1) * (2 * hiddenBit * (2 * hiddenBit)) := by decide
  have scaled : (r.2 * s.2) <<< 971 = r.2 * s.2 * 1 <<< 971 := by
    rw [Nat.one_shiftLeft, Nat.shiftLeft_eq]
  have unit : 0 < 1 <<< 971 := shiftLeft_pos (by decide)
  rw [scaled]
  generalize 1 <<< 971 = u at h unit ⊢
  refine Nat.lt_of_mul_lt_mul_right (a := 2 * hiddenBit * (2 * hiddenBit)) ?_
  calc 2 * (r.1 * s.1) * (2 * hiddenBit * (2 * hiddenBit))
      = 2 * (r.1 * (2 * hiddenBit) * (s.1 * (2 * hiddenBit))) := by ac_rfl
    _ ≤ 2 * (n * (2 * hiddenBit + 1) * r.2 * (k * (2 * hiddenBit + 1) * s.2)) :=
        Nat.mul_le_mul_left 2 both
    _ = 2 * (n * k) * ((2 * hiddenBit + 1) * (2 * hiddenBit + 1)) * (r.2 * s.2) := by ac_rfl
    _ ≤ (4 * hiddenBit - 5) * u * ((2 * hiddenBit + 1) * (2 * hiddenBit + 1)) * (r.2 * s.2) :=
        Nat.mul_le_mul_right _ (Nat.mul_le_mul_right _ h)
    _ = (4 * hiddenBit - 5) * ((2 * hiddenBit + 1) * (2 * hiddenBit + 1)) * u * (r.2 * s.2) := by
        rw [Nat.mul_right_comm (4 * hiddenBit - 5)]
    _ < (4 * hiddenBit - 1) * (2 * hiddenBit * (2 * hiddenBit)) * u * (r.2 * s.2) :=
        Nat.mul_lt_mul_of_pos_right (Nat.mul_lt_mul_of_pos_right margin unit) positive
    _ = (4 * hiddenBit - 1) * (r.2 * s.2 * u) * (2 * hiddenBit * (2 * hiddenBit)) := by ac_rfl

end CapabilityGate.Binary64
