/-!
# Decimal digits

Natural numbers and integers in decimal notation. `digits n` has no leading zero, except that zero
is written `0`; `value` reads any run of digits. Reading what was written gives the number back
(`value_digits`).
-/
namespace CapabilityGate.Decimal

/-- **`tenTo k`** — a one with `k` zeros. -/
def tenTo (k : Nat) : Nat := Nat.pow 10 k

/-- The character of one digit. -/
def digit (d : Nat) : Char := Char.ofNat (48 + d)

/-- **`isDigit c`** — is `c` one of the characters 0 to 9. -/
def isDigit (c : Char) : Bool := '0' ≤ c && c ≤ '9'

/-- The number that one digit stands for. -/
def digitValue (c : Char) : Nat := c.toNat - 48

/-- The digits of a natural number. -/
def digits (n : Nat) : List Char :=
  if n < 10 then [digit n] else digits (n / 10) ++ [digit (n % 10)]

/-- The number that a run of digits stands for, leading zeros allowed. -/
def value (ds : List Char) : Nat := ds.foldl (fun n c => 10 * n + digitValue c) 0

/-- An integer: a minus sign where it is negative, then its digits. -/
def signedDigits (i : Int) : List Char :=
  if i < 0 then '-' :: digits i.natAbs else digits i.natAbs

/-- A natural number as a string. -/
def natText (n : Nat) : String := String.ofList (digits n)

/-- An integer as a string. -/
def intText (i : Int) : String := String.ofList (signedDigits i)

theorem digitValue_digit {d : Nat} (h : d < 10) : digitValue (digit d) = d := by
  have table : ∀ d < 10, digitValue (digit d) = d := by decide
  exact table d h

theorem isDigit_digit {d : Nat} (h : d < 10) : isDigit (digit d) = true := by
  have table : ∀ d < 10, isDigit (digit d) = true := by decide
  exact table d h

theorem digits_ne_nil (n : Nat) : digits n ≠ [] := by
  rw [digits]; split <;> simp

theorem isDigit_of_mem_digits (n : Nat) : ∀ c ∈ digits n, isDigit c = true := by
  induction n using digits.induct with
  | case1 n h => rw [digits, if_pos h]; simpa using isDigit_digit h
  | case2 n h ih =>
    rw [digits, if_neg h]
    intro c hc
    rcases List.mem_append.1 hc with hc | hc
    · exact ih c hc
    · rw [List.mem_singleton.1 hc]; exact isDigit_digit (Nat.mod_lt _ (by decide))

/-- Reading the digits of a number gives the number back. -/
theorem value_digits (n : Nat) : value (digits n) = n := by
  induction n using digits.induct with
  | case1 n h => rw [digits, if_pos h]; simp [value, digitValue_digit h]
  | case2 n h ih =>
    rw [digits, if_neg h, value, List.foldl_append]
    rw [value] at ih
    simp only [ih, List.foldl_cons, List.foldl_nil]
    rw [digitValue_digit (Nat.mod_lt _ (by decide))]
    omega

end CapabilityGate.Decimal
