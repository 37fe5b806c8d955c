import CapabilityGate.Sandbox.ByteSize
import CapabilityGate.Proofs.Text.Trim

/-!
# Byte sizes and their texts

`ByteSize.Written` is the grammar of sizes: digits, blanks and the name of a unit, in letters of
either case. `byte_sizes_exact` says that a size is read back from its own text, and that exactly the
texts of the grammar are read whose number and whose product with the unit are below 2^64. What is
read is that product, so nothing wraps.
-/
namespace CapabilityGate

namespace ByteSize

/-! ## The grammar -/

/-- The units by their sizes, with their names in small letters. -/
def units : List (Nat × List String) :=
  [(1, ["", "b"]), (1024, ["k", "kb", "kib"]), (1048576, ["m", "mb", "mib"]),
   (1073741824, ["g", "gb", "gib"])]

/-- **`Names word unit`** — the word is a name of the unit, in letters of either case. -/
def Names (word : List Char) (unit : Nat) : Prop :=
  ∃ names, (unit, names) ∈ units ∧ String.ofList (word.map Char.toLower) ∈ names

/-- **`Written text n unit`** — the text is the number `n` with the name of a unit, and may have
blanks between the two. -/
inductive Written : List Char → Nat → Nat → Prop
  | intro {digits blanks word : List Char} {unit : Nat} (some : digits ≠ [])
      (number : ∀ c ∈ digits, Decimal.isDigit c = true)
      (between : ∀ c ∈ blanks, Text.isBlank c = true) (names : Names word unit) :
      Written (digits ++ (blanks ++ word)) (Decimal.value digits) unit

/-! ## Units -/

theorem unitOf?_eq_some_iff {word : String} {unit : Nat} :
    unitOf? word = some unit ↔ ∃ names, (unit, names) ∈ units ∧ word ∈ names := by
  constructor
  · intro h
    unfold unitOf? at h
    split_ifs at h with one kilo mega giga <;> cases h
    · exact ⟨_, .head _, one⟩
    · exact ⟨_, .tail _ (.head _), kilo⟩
    · exact ⟨_, .tail _ (.tail _ (.head _)), mega⟩
    · exact ⟨_, .tail _ (.tail _ (.tail _ (.head _))), giga⟩
  · rintro ⟨names, member, listed⟩
    simp only [units, List.mem_cons, List.not_mem_nil, or_false, Prod.mk.injEq] at member
    rcases member with ⟨rfl, rfl⟩ | ⟨rfl, rfl⟩ | ⟨rfl, rfl⟩ | ⟨rfl, rfl⟩ <;>
      simp only [List.mem_cons, List.not_mem_nil, or_false] at listed <;>
      rcases listed with rfl | rfl | rfl <;> rfl

theorem unitOf?_lower_iff {word : List Char} {unit : Nat} :
    unitOf? (String.ofList (Text.asciiLower word)) = some unit ↔ Names word unit :=
  unitOf?_eq_some_iff

theorem isBlank_of_isDigit {c : Char} (digit : Decimal.isDigit c = true) :
    Text.isBlank c = false := by
  simp only [Decimal.isDigit, Bool.and_eq_true, decide_eq_true_eq] at digit
  have first : 48 ≤ c.toNat := digit.1
  have last : c.toNat ≤ 57 := digit.2
  simp [Text.isBlank, Text.inRanges, Text.blankRanges]
  omega

/-- Blanks and digits have no small form of their own. -/
theorem toLower_eq_self {c : Char} (h : Text.isBlank c = true ∨ Decimal.isDigit c = true) :
    c.toLower = c := by
  have noCapital : ¬ (65 ≤ c.toNat ∧ c.toNat ≤ 90) := by
    rcases h with blank | digit
    · simp [Text.isBlank, Text.inRanges, Text.blankRanges] at blank
      omega
    · simp only [Decimal.isDigit, Bool.and_eq_true, decide_eq_true_eq] at digit
      have last : c.toNat ≤ 57 := digit.2
      omega
  unfold Char.toLower
  rw [dif_neg]
  intro capital
  exact noCapital ⟨capital.1, capital.2⟩

/-- The names of units are made of letters. -/
theorem Names.letters {word : List Char} {unit : Nat} (h : Names word unit) :
    ∀ c ∈ word, Text.isBlank c = false ∧ Decimal.isDigit c = false := by
  have small : (units.all fun e => e.2.all fun name => name.toList.all fun c =>
      !Text.isBlank c && !Decimal.isDigit c) = true := by decide +kernel
  simp only [List.all_eq_true, Bool.and_eq_true, Bool.not_eq_true'] at small
  obtain ⟨names, member, listed⟩ := h
  intro c inside
  have lower : c.toLower ∈ (String.ofList (word.map Char.toLower)).toList := by
    rw [String.toList_ofList]
    exact List.mem_map_of_mem inside
  have plain := small _ member _ listed _ lower
  by_contra other
  have same : c.toLower = c := toLower_eq_self (by simpa [or_iff_not_imp_left] using other)
  rw [same] at plain
  exact other plain

/-! ## Reading a text of the grammar -/

/-- The number and the word, as they come off the two ends of the text. -/
theorem written_iff {text : List Char} {n unit : Nat} (trimmed : Text.IsTrimmed text) :
    Written text n unit ↔
      text.takeWhile Decimal.isDigit ≠ [] ∧ Decimal.value (text.takeWhile Decimal.isDigit) = n ∧
        Names (Text.trimChars (text.dropWhile Decimal.isDigit)) unit := by
  constructor
  · rintro ⟨some, number, between, names⟩
    rename_i digits blanks word
    have ends : ∀ c ∈ (blanks ++ word).head?, Decimal.isDigit c = false := by
      intro c first
      rcases List.mem_append.mp (List.mem_of_mem_head? first) with blank | letter
      · refine Bool.eq_false_iff.mpr fun digit => ?_
        exact absurd (between c blank) (by simp [isBlank_of_isDigit digit])
      · exact (names.letters c letter).2
    have ends' : ∀ c ∈ word.head?, Text.isBlank c = false := fun c first =>
      (names.letters c (List.mem_of_mem_head? first)).1
    have last : ∀ c ∈ word.getLast?, Text.isBlank c = false := fun c last =>
      (names.letters c (List.mem_of_mem_getLast? last)).1
    obtain ⟨taken, left⟩ := Text.span_append number ends
    rw [taken, left, Text.trimChars, (Text.span_append between ends').2,
      Text.trimEnd_eq_self_iff.mpr last]
    exact ⟨some, rfl, names⟩
  · rintro ⟨some, rfl, names⟩
    generalize hdigits : text.takeWhile Decimal.isDigit = digits at some
    generalize hrest : text.dropWhile Decimal.isDigit = rest at names
    have split : digits ++ rest = text := by
      rw [← hdigits, ← hrest]
      exact List.takeWhile_append_dropWhile
    have last : ∀ c ∈ rest.getLast?, Text.isBlank c = false := fun c last =>
      trimmed.last c (split ▸ List.mem_getLast?_append_of_mem_getLast? last)
    have number : ∀ c ∈ digits, Decimal.isDigit c = true := fun c member =>
      List.mem_takeWhile_imp (hdigits ▸ member)
    have between : ∀ c ∈ rest.takeWhile Text.isBlank, Text.isBlank c = true := fun c member =>
      List.mem_takeWhile_imp member
    have whole : rest.takeWhile Text.isBlank ++ Text.trimChars rest = rest := by
      rw [Text.trimChars_of_last last]
      exact List.takeWhile_append_dropWhile
    have written := Written.intro some number between names
    rwa [whole, split] at written

theorem toNat_ofUnits {n unit : Nat} (fits : n * unit < UInt64.size) :
    (ofUnits n unit).bytes.toNat = n * unit :=
  UInt64.toNat_ofNat_of_lt' fits

theorem parse_eq_ok_iff {raw : String} {s : ByteSize} :
    parse raw = .ok s ↔
      ∃ n unit, Written (Text.trimChars raw.toList) n unit ∧ n < UInt64.size ∧
        n * unit < UInt64.size ∧ s.bytes.toNat = n * unit := by
  simp only [written_iff (Text.isTrimmed_trimChars raw.toList), ← unitOf?_lower_iff]
  unfold parse
  dsimp only
  constructor
  · intro h
    split at h
    · cases h
    · rename_i sound
      rw [not_or, Nat.not_le] at sound
      split at h
      · cases h
      · rename_i unit named
        split at h
        · cases h
        · rename_i fits
          cases h
          have fits := Nat.not_le.mp fits
          exact ⟨_, unit, ⟨sound.1, rfl, named⟩, sound.2, fits, toNat_ofUnits fits⟩
  · rintro ⟨n, unit, ⟨some, rfl, named⟩, small, fits, value⟩
    rw [if_neg (not_or.mpr ⟨some, Nat.not_le.mpr small⟩), named]
    dsimp only
    rw [if_neg (Nat.not_le.mpr fits)]
    cases s
    exact congrArg (Except.ok <| mk ·)
      (UInt64.toNat_inj.mp ((toNat_ofUnits fits).trans value.symm))

/-! ## Texts of sizes -/

/-- The text of a size is a number with a unit, whose product is the size. -/
theorem display_eq (s : ByteSize) :
    ∃ n word unit, s.display = Decimal.natText n ++ word ∧ Names word.toList unit ∧
      n ≤ s.bytes.toNat ∧ n * unit = s.bytes.toNat := by
  have exact : ∀ {unit}, s.bytes.toNat % unit = 0 → s.bytes.toNat / unit * unit = s.bytes.toNat :=
    fun whole => Nat.div_mul_cancel (Nat.dvd_of_mod_eq_zero whole)
  unfold display
  dsimp only
  split_ifs with giga mega kilo
  · exact ⟨_, "GiB", gib, rfl, ⟨_, .tail _ (.tail _ (.tail _ (.head _))), by decide⟩,
      Nat.div_le_self _ _, exact giga.2⟩
  · exact ⟨_, "MiB", mib, rfl, ⟨_, .tail _ (.tail _ (.head _)), by decide⟩,
      Nat.div_le_self _ _, exact mega.2⟩
  · exact ⟨_, "KiB", kib, rfl, ⟨_, .tail _ (.head _), by decide⟩,
      Nat.div_le_self _ _, exact kilo.2⟩
  · exact ⟨_, "B", 1, rfl, ⟨_, .head _, by decide⟩, Nat.le_refl _, Nat.mul_one _⟩

theorem parse_display (s : ByteSize) : parse s.display = .ok s := by
  obtain ⟨n, word, unit, written, names, small, product⟩ := s.display_eq
  have range : s.bytes.toNat < UInt64.size := s.bytes.toNat_lt_size
  have text : s.display.toList = Decimal.digits n ++ ([] ++ word.toList) := by
    rw [written, Decimal.natText]
    simp
  have plain : Text.IsTrimmed s.display.toList := by
    refine Text.isTrimmed_of_no_blank fun c member => ?_
    rw [text, List.nil_append, List.mem_append] at member
    rcases member with digit | letter
    · exact isBlank_of_isDigit (Decimal.isDigit_of_mem_digits n c digit)
    · exact (names.letters c letter).1
  have noBlank : ∀ c ∈ ([] : List Char), Text.isBlank c = true := by simp
  have grammar := Written.intro (Decimal.digits_ne_nil n) (Decimal.isDigit_of_mem_digits n)
    noBlank names
  rw [← text, Decimal.value_digits] at grammar
  refine parse_eq_ok_iff.mpr ⟨n, unit, ?_, Nat.lt_of_le_of_lt small range, product ▸ range,
    product.symm⟩
  rwa [Text.trimChars_eq_self_iff.mpr plain]

end ByteSize

/-- **Byte sizes are read exactly.** Every size is read back from its text. A text is read exactly if
it is a number with a unit, blanks around it aside, and both the number and its product with the unit
are below 2^64; what is read is the product. -/
theorem byte_sizes_exact :
    (∀ s : ByteSize, ByteSize.parse s.display = .ok s) ∧
    ∀ raw s, ByteSize.parse raw = .ok s ↔
      ∃ n unit, ByteSize.Written (Text.trimChars raw.toList) n unit ∧ n < UInt64.size ∧
        n * unit < UInt64.size ∧ s.bytes.toNat = n * unit :=
  ⟨ByteSize.parse_display, fun _ _ => ByteSize.parse_eq_ok_iff⟩

end CapabilityGate
