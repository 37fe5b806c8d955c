import CapabilityGate.Json.Reader
import CapabilityGate.Proofs.Text.Trim

/-!
# Numbers as they are written

A numeral that keeps to the grammar is read back from its text, whatever stands behind it, as long
as that cannot belong to the number. So what a number is read as does not depend on where it stands:
`readValue_number` gives it as `rereadNumber`, the reading of the text on its own.
-/
namespace CapabilityGate.Json

/-! ## Runs of digits -/

/-- A run of digits, at least one. -/
def IsDigits (ds : List Char) : Prop := ds ≠ [] ∧ ∀ c ∈ ds, Decimal.isDigit c = true

/-- What stands behind a number and does not belong to it. -/
def EndsNumber (rest : List Char) : Prop :=
  ∀ c ∈ rest.head?, Decimal.isDigit c = false ∧ c ≠ '.' ∧ c ≠ 'e' ∧ c ≠ 'E'

theorem endsNumber_nil : EndsNumber [] := by
  simp [EndsNumber]

theorem endsNumber_cons {c : Char} {cs : List Char} (hdigit : Decimal.isDigit c = false)
    (hpoint : c ≠ '.') (hsmall : c ≠ 'e') (hcapital : c ≠ 'E') : EndsNumber (c :: cs) := by
  intro d hd
  cases hd
  exact ⟨hdigit, hpoint, hsmall, hcapital⟩

theorem readDigits_append {ds rest : List Char} (hds : IsDigits ds)
    (hrest : ∀ c ∈ rest.head?, Decimal.isDigit c = false) :
    readDigits (ds ++ rest) = some (ds, rest) := by
  obtain ⟨taken, left⟩ := Text.span_append hds.2 hrest
  rw [readDigits, taken, left]
  simp [hds.1]

theorem isDigits_digits (n : Nat) : IsDigits (Decimal.digits n) :=
  ⟨Decimal.digits_ne_nil n, Decimal.isDigit_of_mem_digits n⟩

/-- Only zero is written with a zero in front. -/
theorem digits_of_head_zero {n : Nat} (h : (Decimal.digits n).head? = some '0') :
    Decimal.digits n = ['0'] := by
  induction n using Decimal.digits.induct with
  | case1 n small =>
    rw [Decimal.digits, if_pos small] at h ⊢
    simpa using h
  | case2 n large ih =>
    have first : (Decimal.digits (n / 10)).head? = some '0' := by
      obtain ⟨c, cs, split⟩ := List.exists_cons_of_ne_nil (Decimal.digits_ne_nil (n / 10))
      rw [Decimal.digits, if_neg large, split] at h
      rw [split]
      exact h
    have zero : n / 10 = Decimal.value ['0'] := by rw [← ih first, Decimal.value_digits]
    have none : Decimal.value ['0'] = 0 := rfl
    omega

/-! ## Numerals -/

namespace Numeral

/-- The digits of a numeral with point and exponent, without its sign. -/
def unsigned (n : Numeral) : List Char :=
  n.whole ++
    ((match n.fraction with
      | none => []
      | some ds => '.' :: ds) ++
    match n.exponent with
      | none => []
      | some (negative, ds) => 'e' :: (if negative then '-' else '+') :: ds)

/-- **`n.text`** — a numeral as it is written. -/
def text (n : Numeral) : List Char := if n.negative then '-' :: n.unsigned else n.unsigned

/-- The digits before the point may start with a zero only if there are no others. -/
structure WellFormed (n : Numeral) : Prop where
  whole : IsDigits n.whole
  leading : n.whole.head? = some '0' → n.whole = ['0']
  fraction : ∀ ds, n.fraction = some ds → IsDigits ds
  exponent : ∀ negative ds, n.exponent = some (negative, ds) → IsDigits ds

end Numeral

theorem readWhole_append {ds : List Char} (rest : List Char) (hds : IsDigits ds)
    (leading : ds.head? = some '0' → ds = ['0'])
    (hrest : ∀ c ∈ rest.head?, Decimal.isDigit c = false) :
    readWhole (ds ++ rest) = some (ds, rest) := by
  obtain ⟨c, cs, rfl⟩ := List.exists_cons_of_ne_nil hds.1
  by_cases hzero : c = '0'
  · subst hzero
    obtain ⟨rfl⟩ := (List.cons.inj (leading rfl)).2
    cases rest with
    | nil => rfl
    | cons d rest => simp [readWhole, hrest d rfl]
  · have plain : readWhole (c :: cs ++ rest) = readDigits (c :: cs ++ rest) := by
      simp [readWhole, hzero]
    rw [plain, readDigits_append hds hrest]

theorem readFraction_point {ds : List Char} (rest : List Char) (hds : IsDigits ds)
    (hrest : ∀ c ∈ rest.head?, Decimal.isDigit c = false) :
    readFraction ('.' :: (ds ++ rest)) = some (some ds, rest) := by
  simp [readFraction, readDigits_append hds hrest]

theorem readFraction_none (rest : List Char) (hrest : ∀ c ∈ rest.head?, c ≠ '.') :
    readFraction rest = some (none, rest) := by
  cases rest with
  | nil => rfl
  | cons c cs =>
    have point : c ≠ '.' := hrest c rfl
    simp [readFraction, point]

theorem readExponent_sign {ds rest : List Char} (negative : Bool) (hds : IsDigits ds)
    (hrest : ∀ c ∈ rest.head?, Decimal.isDigit c = false) :
    readExponent ('e' :: (if negative then '-' else '+') :: (ds ++ rest)) =
      some (some (negative, ds), rest) := by
  cases negative <;> simp [readExponent, readDigits_append hds hrest]

theorem readExponent_none {rest : List Char} (hrest : EndsNumber rest) :
    readExponent rest = some (none, rest) := by
  cases rest with
  | nil => rfl
  | cons c cs =>
    obtain ⟨_, _, small, capital⟩ := hrest c rfl
    simp [readExponent, small, capital]

namespace Numeral

variable {n : Numeral} {rest : List Char}

/-- A numeral is read back up to whatever does not belong to it. -/
theorem WellFormed.readNumeral (hn : n.WellFormed) (hrest : EndsNumber rest) :
    readNumeral n.negative (n.unsigned ++ rest) = some (n, rest) := by
  obtain ⟨negative, whole, fraction, exponent⟩ := n
  have digits : ∀ c ∈ rest.head?, Decimal.isDigit c = false := fun c hc => (hrest c hc).1
  have points : ∀ c ∈ rest.head?, c ≠ '.' := fun c hc => (hrest c hc).2.1
  -- From the right: what the exponent leaves, what the fraction leaves, what the whole leaves.
  cases exponent with
  | none =>
    cases fraction with
    | none =>
      simp [Json.readNumeral, unsigned, readWhole_append rest hn.whole hn.leading digits,
        readFraction_none rest points, readExponent_none hrest]
    | some ds =>
      have hds := hn.fraction ds rfl
      have whole := readWhole_append ('.' :: (ds ++ rest)) hn.whole hn.leading (by simp; rfl)
      simp [Json.readNumeral, unsigned, whole, readFraction_point rest hds digits,
        readExponent_none hrest]
  | some e =>
    obtain ⟨sign, es⟩ := e
    have hes := hn.exponent sign es rfl
    cases fraction with
    | none =>
      have whole := readWhole_append
        ('e' :: (if sign then '-' else '+') :: (es ++ rest)) hn.whole hn.leading
        (by simp; rfl)
      have point := readFraction_none
        ('e' :: (if sign then '-' else '+') :: (es ++ rest)) (by simp)
      simp [Json.readNumeral, unsigned, whole, point, readExponent_sign sign hes digits]
    | some ds =>
      have hds := hn.fraction ds rfl
      have whole := readWhole_append
        ('.' :: (ds ++ 'e' :: (if sign then '-' else '+') :: (es ++ rest))) hn.whole
        hn.leading (by simp; rfl)
      have point := readFraction_point
        ('e' :: (if sign then '-' else '+') :: (es ++ rest)) hds (by simp; rfl)
      simp [Json.readNumeral, unsigned, whole, point, readExponent_sign sign hes digits]

end Numeral

/-! ## Numbers as documents -/

theorem skipBlanks_cons {c : Char} (hc : isBlank c = false) (cs : List Char) :
    skipBlanks (c :: cs) = c :: cs := by
  simp [skipBlanks, hc]

theorem isBlank_of_isDigit {c : Char} (hc : Decimal.isDigit c = true) : isBlank c = false := by
  cases blank : isBlank c with
  | false => rfl
  | true =>
    simp only [isBlank, Bool.or_eq_true, decide_eq_true_eq] at blank
    rcases blank with ((rfl | rfl) | rfl) | rfl <;> cases hc

/-- Every character that starts a document of another sort is no digit. -/
theorem readValue_digit (fuel : Nat) {c : Char} (hc : Decimal.isDigit c = true) (cs : List Char) :
    readValue (fuel + 1) (c :: cs) =
      (readNumeral false (c :: cs)).map fun (n, rest) => (n.value, rest) := by
  have others : ∀ d, Decimal.isDigit d = false → c ≠ d := fun d hd h => by
    rw [h, hd] at hc
    cases hc
  have quote := others '"' rfl
  have bracket := others '[' rfl
  have brace := others '\x7b' rfl
  have minus := others '-' rfl
  have n := others 'n' rfl
  have t := others 't' rfl
  have f := others 'f' rfl
  rw [readValue]
  all_goals
    intro _ h
    obtain ⟨rfl, -⟩ := List.cons.inj h
    contradiction

namespace Numeral

variable {n : Numeral} {rest : List Char}

/-- A number stands for its value, whatever stands behind it. -/
theorem WellFormed.readValue (hn : n.WellFormed) (hrest : EndsNumber rest) (fuel : Nat) :
    readValue (fuel + 1) (n.text ++ rest) = some (n.value, rest) := by
  have numeral := hn.readNumeral hrest
  cases hsign : n.negative with
  | true =>
    rw [hsign] at numeral
    simp [text, hsign, Json.readValue, numeral]
  | false =>
    rw [hsign] at numeral
    obtain ⟨c, cs, first⟩ := List.exists_cons_of_ne_nil hn.whole.1
    have digit : Decimal.isDigit c = true := hn.whole.2 c (by simp [first])
    have shape : n.text ++ rest = c :: (n.text ++ rest).tail := by
      simp [text, hsign, unsigned, first]
    have same : n.text = n.unsigned := by simp [text, hsign]
    rw [shape, readValue_digit fuel digit, ← shape, same, numeral]
    rfl

/-- The text of a number starts with a digit or with a sign. -/
theorem WellFormed.exists_cons (hn : n.WellFormed) :
    ∃ c cs, n.text = c :: cs ∧ isBlank c = false ∧ c ≠ ']' := by
  obtain ⟨c, cs, first⟩ := List.exists_cons_of_ne_nil hn.whole.1
  have digit : Decimal.isDigit c = true := hn.whole.2 c (by simp [first])
  cases hsign : n.negative with
  | true => exact ⟨'-', n.unsigned, by simp [text, hsign], rfl, by decide⟩
  | false =>
    refine ⟨c, n.text.tail, by simp [text, hsign, unsigned, first], isBlank_of_isDigit digit, ?_⟩
    rintro rfl
    cases digit

/-- A number is a whole document. -/
theorem WellFormed.parse (hn : n.WellFormed) : parse (String.ofList n.text) = some n.value := by
  obtain ⟨c, cs, first, blank, -⟩ := hn.exists_cons
  have blanks : skipBlanks n.text = n.text := by rw [first, skipBlanks_cons blank]
  have number := hn.readValue endsNumber_nil (2 * n.text.length + 1)
  rw [List.append_nil] at number
  simp only [Json.parse, String.toList_ofList, blanks, number]
  rfl

end Numeral

/-- **`rereadNumber text`** — what the text of a number stands for. -/
def rereadNumber (text : List Char) : Json := (parse (String.ofList text)).getD unreadable

/-- What a number is read as does not depend on what stands behind it. -/
theorem readValue_number {n : Numeral} {rest : List Char} (hn : n.WellFormed)
    (hrest : EndsNumber rest) (fuel : Nat) :
    readValue (fuel + 1) (n.text ++ rest) = some (rereadNumber n.text, rest) := by
  rw [hn.readValue hrest, rereadNumber, hn.parse, Option.getD_some]

/-! ## Integers -/

namespace Numeral

/-- The numeral that an integer is written as. -/
def ofInt (i : Int) : Numeral := ⟨i < 0, Decimal.digits i.natAbs, none, none⟩

theorem text_ofInt (i : Int) : (ofInt i).text = Decimal.signedDigits i := by
  simp [text, unsigned, ofInt, Decimal.signedDigits]

theorem wellFormed_ofInt (i : Int) : (ofInt i).WellFormed where
  whole := isDigits_digits _
  leading := digits_of_head_zero
  fraction := by simp [ofInt]
  exponent := by simp [ofInt]

/-- The integers that fit 64 bits, with or without a sign, keep their value. -/
theorem value_ofInt {i : Int} (least : Int64.minValue.toInt ≤ i) (greatest : i < UInt64.size) :
    (ofInt i).value = .int i := by
  have width : UInt64.size = 18446744073709551616 := rfl
  have floor : Int64.minValue.toInt = -9223372036854775808 := rfl
  have span : (-9223372036854775808 : Int).natAbs = 9223372036854775808 := rfl
  rw [width] at greatest
  rw [floor] at least
  rw [value, if_pos]
  · simp only [ofInt, Decimal.value_digits, decide_eq_true_eq]
    split <;> congr 1 <;> omega
  · simp only [ofInt, Decimal.value_digits, width, floor, span, decide_eq_false_iff_not]
    exact ⟨trivial, trivial, by omega, by omega⟩

/-- No other integer is read as one. -/
theorem value_ofInt_ne (i : Int) {k : Int} (greatest : UInt64.size ≤ i) :
    (ofInt i).value ≠ .int k := by
  rw [value, if_neg]
  · split <;> simp
  · simp only [ofInt, Decimal.value_digits]
    omega

end Numeral

end CapabilityGate.Json
