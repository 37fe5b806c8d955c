import CapabilityGate.Decimal.Digits
import CapabilityGate.Proofs.Capability.Expression
import CapabilityGate.Proofs.Text.Fields
import CapabilityGate.Proofs.Text.Trim
import Mathlib.Computability.Language

/-!
# Names of capabilities

`Capability.IsName` is the grammar of names: a star, or one to eight segments with dots between them,
each of one to 64 small letters, digits and underscores. The dotted names are also given by a regular
expression with counted repetitions, `Capability.nameExpression`, whose language is built from
Mathlib's operations on languages.

`Capability.parse` cuts a name at its dots and looks at the fields. `capability_names_exact` says that
grammar, expression and `parse` agree on every text, blanks around it aside.
-/
namespace CapabilityGate

namespace Expression

/-! ## Counted repetition -/

/-- An expression without choices, in which repetitions are counted. -/
inductive Counted where
  /-- One character of some ranges, whose ends are in them. -/
  | among (ranges : List (Char × Char))
  /-- Exactly this character. -/
  | only (c : Char)
  /-- One expression, and the other behind it. -/
  | both (first rest : Counted)
  /-- At least `least` and at most `most` texts of one expression, one behind the other. -/
  | times (part : Counted) (least most : Nat)
deriving DecidableEq, Repr

namespace Counted

/-- **`e.language`** — the texts of an expression. -/
def language : Counted → Language Char
  | among ranges => {s | ∃ c, s = [c] ∧ ∃ r ∈ ranges, r.1 ≤ c ∧ c ≤ r.2}
  | only c => {[c]}
  | both first rest => first.language * rest.language
  | times part least most => {s | ∃ n, least ≤ n ∧ n ≤ most ∧ s ∈ part.language ^ n}

/-- A range in a class of characters, which is written as one character if it has only one. -/
def writeRange (r : Char × Char) : List Char := if r.1 = r.2 then [r.1] else [r.1, '-', r.2]

/-- The text of an expression, in brackets where a repetition of it needs them. -/
def write : Counted → List Char
  | among ranges => '[' :: ranges.flatMap writeRange ++ [']']
  | only c => (Wildcard.literal c).expression
  | both first rest => first.write ++ rest.write
  | times part least most =>
    let repeated :=
      match part with
      | both _ _ | times _ _ _ => '(' :: part.write ++ [')']
      | _ => part.write
    repeated ++ '\x7b' :: Decimal.digits least ++ ',' :: Decimal.digits most ++ ['\x7d']

/-- The text of an expression that speaks of whole texts. -/
def text (e : Counted) : String := String.ofList ('^' :: e.write ++ ['$'])

variable {part : Counted} {ranges : List (Char × Char)} {least most : Nat} {s : List Char}

theorem mem_times_iff :
    s ∈ (times part least most).language ↔
      ∃ pieces : List (List Char), least ≤ pieces.length ∧ pieces.length ≤ most ∧
        (∀ piece ∈ pieces, piece ∈ part.language) ∧ pieces.flatten = s := by
  constructor
  · rintro ⟨n, enough, few, power⟩
    obtain ⟨pieces, rfl, rfl, fits⟩ := Language.mem_pow.mp power
    exact ⟨pieces, enough, few, fits, rfl⟩
  · rintro ⟨pieces, enough, few, fits, rfl⟩
    exact ⟨pieces.length, enough, few, Language.mem_pow.mpr ⟨pieces, rfl, rfl, fits⟩⟩

/-- A class of characters, repeated, bounds the characters and how many there are. -/
theorem mem_times_among_iff :
    s ∈ (times (among ranges) least most).language ↔
      least ≤ s.length ∧ s.length ≤ most ∧ ∀ c ∈ s, ∃ r ∈ ranges, r.1 ≤ c ∧ c ≤ r.2 := by
  rw [mem_times_iff]
  constructor
  · rintro ⟨pieces, enough, few, fits, rfl⟩
    have single : ∀ piece ∈ pieces, piece.length = 1 := by
      intro piece member
      obtain ⟨c, rfl, -⟩ := fits piece member
      rfl
    have count : pieces.flatten.length = pieces.length := by
      rw [List.length_flatten, List.map_congr_left single, List.map_const',
        List.sum_replicate_nat, Nat.mul_one]
    refine ⟨count ▸ enough, count ▸ few, ?_⟩
    intro c member
    obtain ⟨piece, listed, inside⟩ := List.mem_flatten.mp member
    obtain ⟨d, rfl, ranged⟩ := fits piece listed
    obtain rfl := List.mem_singleton.mp inside
    exact ranged
  · rintro ⟨enough, few, ranged⟩
    refine ⟨s.map fun c => [c], ?_, ?_, ?_, ?_⟩
    · rwa [List.length_map]
    · rwa [List.length_map]
    · intro piece member
      obtain ⟨c, inside, rfl⟩ := List.mem_map.mp member
      exact ⟨c, rfl, ranged c inside⟩
    · rw [← List.flatMap_def, List.flatMap_singleton']

end Counted

end Expression

open Expression

namespace Capability

/-! ## The grammar -/

/-- **`IsNameSegment cs`** — one to 64 small letters, digits and underscores. -/
structure IsNameSegment (cs : List Char) : Prop where
  some : 1 ≤ cs.length
  short : cs.length ≤ 64
  plain : ∀ c ∈ cs, ('a' ≤ c ∧ c ≤ 'z') ∨ ('0' ≤ c ∧ c ≤ '9') ∨ c = '_'

/-- **`IsDottedName cs`** — one to eight segments with single dots between them. -/
inductive IsDottedName : List Char → Prop
  | joined {segments : List (List Char)} (some : 1 ≤ segments.length) (few : segments.length ≤ 8)
      (sound : ∀ segment ∈ segments, IsNameSegment segment) :
      IsDottedName (['.'].intercalate segments)

/-- **`IsName cs`** — the text names a capability: it is a star alone, or a dotted name. -/
def IsName (cs : List Char) : Prop := cs = ['*'] ∨ IsDottedName cs

/-- The expression of a segment. -/
def segmentExpression : Counted := .times (.among [('a', 'z'), ('0', '9'), ('_', '_')]) 1 64

/-- **`nameExpression`** — the expression of a dotted name: a segment, and up to seven more with a dot
in front of each. -/
def nameExpression : Counted :=
  .both segmentExpression (.times (.both (.only '.') segmentExpression) 0 7)

variable {cs : List Char} {c : Char}

theorem isNameChar_iff :
    isNameChar c = true ↔ ('a' ≤ c ∧ c ≤ 'z') ∨ ('0' ≤ c ∧ c ≤ '9') ∨ c = '_' := by
  simp [isNameChar, or_assoc]

theorem isSegment_iff : isSegment cs = true ↔ IsNameSegment cs := by
  simp only [isSegment, Bool.and_eq_true, decide_eq_true_eq, List.all_eq_true, isNameChar_iff]
  constructor
  · rintro ⟨⟨some, short⟩, plain⟩
    exact ⟨some, short, plain⟩
  · rintro ⟨some, short, plain⟩
    exact ⟨⟨some, short⟩, plain⟩

/-! ## Names as they are cut at their dots -/

theorem IsNameSegment.no_dot (h : IsNameSegment cs) : '.' ∉ cs := by
  intro dot
  exact absurd (h.plain '.' dot) (by decide)

/-- The fields of a dotted name are its segments. -/
theorem isDotted_iff : isDotted cs = true ↔ IsDottedName cs := by
  simp only [isDotted, Bool.and_eq_true, decide_eq_true_eq, List.all_eq_true, isSegment_iff]
  constructor
  · rintro ⟨few, sound⟩
    have some : 1 ≤ (Text.fields '.' cs).length := by
      rw [Text.length_fields]
      omega
    have name := IsDottedName.joined some few sound
    rwa [← Text.joinWith_eq_intercalate, Text.joinWith_fields] at name
  · rintro ⟨some, few, sound⟩
    rename_i segments
    have cut : Text.fields '.' (['.'].intercalate segments) = segments := by
      rw [← Text.joinWith_eq_intercalate]
      exact Text.fields_joinWith (List.length_pos_iff.mp some) fun s member =>
        (sound s member).no_dot
    rw [cut]
    exact ⟨few, sound⟩

/-! ## Names as the expression gives them -/

theorem mem_segmentExpression_iff : cs ∈ segmentExpression.language ↔ IsNameSegment cs := by
  have ranged : ∀ c : Char, (∃ r ∈ [('a', 'z'), ('0', '9'), ('_', '_')], r.1 ≤ c ∧ c ≤ r.2) ↔
      ('a' ≤ c ∧ c ≤ 'z') ∨ ('0' ≤ c ∧ c ≤ '9') ∨ c = '_' := by
    intro c
    have underscore : ('_' ≤ c ∧ c ≤ '_') ↔ c = '_' := by
      constructor
      · rintro ⟨least, most⟩
        exact Char.le_antisymm most least
      · rintro rfl
        exact ⟨Char.le_refl '_', Char.le_refl '_'⟩
    simp only [List.exists_mem_cons_iff, List.not_mem_nil, false_and, exists_false, or_false,
      underscore]
  rw [segmentExpression, Counted.mem_times_among_iff]
  simp only [ranged]
  constructor
  · rintro ⟨some, short, plain⟩
    exact ⟨some, short, plain⟩
  · rintro ⟨some, short, plain⟩
    exact ⟨some, short, plain⟩

theorem mem_dottedSegment_iff :
    cs ∈ (Counted.both (.only '.') segmentExpression).language ↔
      ∃ segment, cs = '.' :: segment ∧ IsNameSegment segment := by
  simp only [Counted.language, Language.mem_mul, ← mem_segmentExpression_iff]
  constructor
  · rintro ⟨dot, rfl, segment, fits, rfl⟩
    exact ⟨segment, rfl, fits⟩
  · rintro ⟨segment, rfl, fits⟩
    exact ⟨['.'], rfl, segment, fits, rfl⟩

/-- Joined segments are the first one, and each further one with a dot in front of it. -/
theorem intercalate_cons (dot : Char) (first : List Char) (others : List (List Char)) :
    [dot].intercalate (first :: others) = first ++ (others.map (dot :: ·)).flatten := by
  induction others generalizing first with
  | nil => simp
  | cons next others ih => simp [ih]

theorem mem_nameExpression_iff : cs ∈ nameExpression.language ↔ IsDottedName cs := by
  have parts : cs ∈ nameExpression.language ↔ ∃ first ∈ segmentExpression.language,
      ∃ rest ∈ (Counted.times (.both (.only '.') segmentExpression) 0 7).language,
        first ++ rest = cs :=
    Language.mem_mul
  simp only [parts, Counted.mem_times_iff, mem_dottedSegment_iff, mem_segmentExpression_iff]
  constructor
  · rintro ⟨first, sound, rest, ⟨pieces, -, few, fits, rfl⟩, rfl⟩
    have dotted : (pieces.map List.tail).map ('.' :: ·) = pieces := by
      rw [List.map_map]
      refine (List.map_congr_left fun piece member => ?_).trans (List.map_id pieces)
      obtain ⟨segment, rfl, -⟩ := fits piece member
      rfl
    have name : IsDottedName (['.'].intercalate (first :: pieces.map List.tail)) := by
      have length : (first :: pieces.map List.tail).length = pieces.length + 1 := by
        rw [List.length_cons, List.length_map]
      refine .joined (by omega) (by omega) ?_
      intro segment member
      rcases List.mem_cons.mp member with rfl | later
      · exact sound
      · obtain ⟨piece, listed, rfl⟩ := List.mem_map.mp later
        obtain ⟨segment, rfl, sound'⟩ := fits piece listed
        exact sound'
    rwa [intercalate_cons, dotted] at name
  · rintro ⟨some, few, sound⟩
    rename_i segments
    cases segments with
    | nil => cases some
    | cons first others =>
      refine ⟨first, sound first List.mem_cons_self, (others.map ('.' :: ·)).flatten,
        ⟨others.map ('.' :: ·), Nat.zero_le _, ?_, ?_, rfl⟩, ?_⟩
      · rw [List.length_cons] at few
        rw [List.length_map]
        omega
      · intro piece member
        obtain ⟨segment, listed, rfl⟩ := List.mem_map.mp member
        exact ⟨segment, rfl, sound segment (List.mem_cons_of_mem first listed)⟩
      · exact (intercalate_cons '.' first others).symm

/-! ## Names that are read -/

section Reading

variable {s : String} {capability : Capability}

theorem isName_iff : IsName s.toList ↔ s = "*" ∨ isDotted s.toList = true := by
  rw [IsName, isDotted_iff, ← String.toList_inj]
  rfl

/-- A text is accepted if it is a name without the blanks around it, and for what it then is. -/
theorem parse_eq_ok_iff :
    parse s = .ok capability ↔
      Text.StripsTo s.toList capability.name.toList ∧ IsName capability.name.toList := by
  constructor
  · intro h
    obtain rfl := parse_eq_ok h
    refine ⟨?_, ?_⟩
    · rw [Text.stripsTo_iff, Text.trim, String.toList_ofList]
    · unfold parse at h
      dsimp only at h
      split at h
      · rename_i accepted
        exact isName_iff.mpr accepted
      · cases h
  · rintro ⟨strips, name⟩
    have same : Text.trim s = capability.name := by
      rw [Text.trim, ← strips.eq_trimChars, String.ofList_toList]
    unfold parse
    rw [same]
    exact if_pos (isName_iff.mp name)

/-- The characters of a name that is accepted. -/
theorem mem_name (h : parse s = .ok capability) (member : c ∈ capability.name.toList) :
    isNameChar c = true ∨ c = '.' ∨ c = '*' := by
  rcases isName_iff.mp (parse_eq_ok_iff.mp h).2 with star | dotted
  · rw [star] at member
    exact .inr (.inr (List.mem_singleton.mp member))
  · simp only [isDotted, isSegment, Bool.and_eq_true, List.all_eq_true] at dotted
    rcases Text.eq_or_mem_field '.' member with dot | ⟨f, field, member⟩
    · exact .inr (.inl dot)
    · exact .inl ((dotted.2 f field).2 c member)

theorem isBlank_of_isNameChar (h : isNameChar c = true) : Text.isBlank c = false := by
  -- The letters, the digits and the underscore lie between the blanks of ASCII and those behind it.
  have between : 48 ≤ c.toNat ∧ c.toNat ≤ 122 := by
    rcases isNameChar_iff.mp h with letter | digit | rfl
    · exact ⟨le_trans (by decide) letter.1, letter.2⟩
    · exact ⟨digit.1, le_trans digit.2 (by decide)⟩
    · decide
  simp [Text.isBlank, Text.inRanges, Text.blankRanges]
  omega

/-- A name can stand in front of an equals sign and in a list with commas or blanks. -/
theorem plain_of_mem_name (h : parse s = .ok capability) (member : c ∈ capability.name.toList) :
    c ≠ '=' ∧ c ≠ ',' ∧ Text.isBlank c = false := by
  rcases mem_name h member with name | rfl | rfl
  · refine ⟨?_, ?_, isBlank_of_isNameChar name⟩
    · rintro rfl
      exact absurd name (by decide)
    · rintro rfl
      exact absurd name (by decide)
  · decide
  · decide

end Reading

end Capability

/-- **Names are accepted exactly by their grammar.** A text is read exactly if it is a name without
the blanks around it, and it is read as that name. A name is a star alone or a dotted name, and the
dotted names are the texts of a regular expression. What was read is read again as it is, and it has
no equals sign, no comma and no blank. -/
theorem capability_names_exact :
    Capability.nameExpression.text =
      "^[a-z0-9_]\x7b1,64\x7d(\\.[a-z0-9_]\x7b1,64\x7d)\x7b0,7\x7d$" ∧
    (∀ name, Capability.IsName name ↔
      name = ['*'] ∨ name ∈ Capability.nameExpression.language) ∧
    ∀ s c, (Capability.parse s = .ok c ↔
        Text.StripsTo s.toList c.name.toList ∧ Capability.IsName c.name.toList) ∧
      (Capability.parse s = .ok c → Capability.parse c.name = .ok c ∧
        ∀ x ∈ c.name.toList, x ≠ '=' ∧ x ≠ ',' ∧ Text.isBlank x = false) := by
  refine ⟨by decide +kernel, ?_, ?_⟩
  · intro name
    rw [Capability.IsName, Capability.mem_nameExpression_iff]
  · intro s c
    refine ⟨Capability.parse_eq_ok_iff, ?_⟩
    intro read
    exact ⟨Capability.parse_name read, fun x member => Capability.plain_of_mem_name read member⟩

/-- A line break behind a name comes off it; the name is then read again as it is. One inside is no
part of any name. -/
theorem capability_names_exact_line_break :
    Capability.parse " file.read\n" = .ok ⟨"file.read"⟩ ∧
    Capability.parse "file.read" = .ok ⟨"file.read"⟩ ∧
    Capability.parse "file\n.read" = .error ⟨"file\n.read"⟩ := by
  have read : Capability.parse " file.read\n" = .ok ⟨"file.read"⟩ := by decide +kernel
  exact ⟨read, ((capability_names_exact.2.2 _ _).2 read).1, by decide +kernel⟩

end CapabilityGate
