import CapabilityGate.Proofs.Capability.Cutting

/-!
# Patterns as regular expressions

Every text spells a regular expression as a pattern (`Pattern.expressionOf`), between `^` and `$`, so
that it speaks of whole resources: `**` becomes `.*`, `*` becomes `[^/]*`, `?` becomes `[^/]`, and a
character that would mean something else in an expression gets a backslash.

Expressions of this kind are read here as a list of terms, each for one character of a class or, with
a star behind it, for any number of them. Whatever the text is, its expression can be read, one term
for each wildcard (`Pattern.read?_expressionOf`), and a term takes what its wildcard covers
(`Wildcard.covers_iff_takes`).
-/
namespace CapabilityGate

namespace Expression

/-! ## Terms -/

/-- A class of characters. -/
inductive CharClass where
  | exactly (c : Char)
  | otherThan (c : Char)
deriving DecidableEq, Repr

/-- Is this character in the class. -/
def CharClass.has : CharClass → Char → Bool
  | exactly d, c => c == d
  | otherThan d, c => c != d

/-- Characters of a class: one, or any number of them. -/
structure Term where
  chars : CharClass
  repeated : Bool
deriving DecidableEq, Repr

/-- **`t.Takes piece`** — the piece is of the form that the term asks for. -/
def Term.Takes (t : Term) (piece : List Char) : Prop :=
  (∀ c ∈ piece, t.chars.has c = true) ∧ (t.repeated = true ∨ piece.length = 1)

/-! ## Reading -/

/-- A class of characters at the start of a text, and the text after it. -/
def readClass : List Char → Option (CharClass × List Char)
  | [] => none
  | '.' :: cs => some (.otherThan '\n', cs)
  | '[' :: '^' :: c :: ']' :: cs => if c ∈ special then none else some (.otherThan c, cs)
  | '\\' :: c :: cs => if c ∈ special then some (.exactly c, cs) else none
  | c :: cs => if c ∈ special then none else some (.exactly c, cs)

theorem length_lt_of_readClass {cs rest : List Char} {chars : CharClass}
    (h : readClass cs = some (chars, rest)) : rest.length < cs.length := by
  unfold readClass at h
  split at h
  · cases h
  · cases h
    exact Nat.lt_succ_self _
  · split at h
    · cases h
    · cases h
      simp only [List.length_cons]
      omega
  · split at h
    · cases h
      simp only [List.length_cons]
      omega
    · cases h
  · split at h
    · cases h
    · cases h
      exact Nat.lt_succ_self _

/-- The terms up to the dollar sign at the end. -/
def readTerms (cs : List Char) : Option (List Term) :=
  if cs = ['$'] then some []
  else
    match _h : readClass cs with
    | none => none
    | some (chars, '*' :: rest) => (readTerms rest).map (⟨chars, true⟩ :: ·)
    | some (chars, rest) => (readTerms rest).map (⟨chars, false⟩ :: ·)
termination_by cs.length
decreasing_by
  · have shorter := length_lt_of_readClass _h
    rw [List.length_cons] at shorter
    omega
  · exact length_lt_of_readClass _h

theorem ne_dollar_of_readClass {cs rest : List Char} {chars : CharClass}
    (h : readClass cs = some (chars, rest)) : cs ≠ ['$'] := by
  rintro rfl
  cases h

theorem readTerms_repeated {cs rest : List Char} {chars : CharClass}
    (h : readClass cs = some (chars, '*' :: rest)) :
    readTerms cs = (readTerms rest).map (⟨chars, true⟩ :: ·) := by
  rw [readTerms, if_neg (ne_dollar_of_readClass h)]
  split <;> simp_all

theorem readTerms_single {cs rest : List Char} {chars : CharClass}
    (h : readClass cs = some (chars, rest)) (single : ∀ others, rest ≠ '*' :: others) :
    readTerms cs = (readTerms rest).map (⟨chars, false⟩ :: ·) := by
  rw [readTerms, if_neg (ne_dollar_of_readClass h)]
  split
  · simp_all
  · rename_i chars' others star
    obtain ⟨-, rfl⟩ := Prod.mk.inj (Option.some.inj (h.symm.trans star))
    exact absurd rfl (single others)
  · simp_all

/-- **`read? cs`** — the terms of an expression that speaks of whole texts. -/
def read? : List Char → Option (List Term)
  | '^' :: cs => readTerms cs
  | _ => none

end Expression

open Expression

/-! ## The expression of a pattern -/

namespace Wildcard

/-- The term that the text of a wildcard is read as. -/
def term : Wildcard → Term
  | literal c => ⟨.exactly c, false⟩
  | one => ⟨.otherThan '/', false⟩
  | segment => ⟨.otherThan '/', true⟩
  | deep => ⟨.otherThan '\n', true⟩

theorem covers_iff_takes (w : Wildcard) (piece : List Char) :
    w.Covers piece ↔ w.term.Takes piece := by
  have single : ∀ P : Char → Prop,
      (∃ c, P c ∧ piece = [c]) ↔ (∀ c ∈ piece, P c) ∧ piece.length = 1 := by
    intro P
    rw [List.length_eq_one_iff]
    constructor
    · rintro ⟨c, hc, rfl⟩
      exact ⟨by simpa using hc, c, rfl⟩
    · rintro ⟨h, c, rfl⟩
      exact ⟨c, h c List.mem_cons_self, rfl⟩
  have without : ∀ d, d ∉ piece ↔ ∀ c ∈ piece, c ≠ d := fun d =>
    ⟨fun h c hc same => h (same ▸ hc), fun h hd => h d hd rfl⟩
  cases w with
  | literal d => simpa [Covers, Term.Takes, term, CharClass.has] using single (· = d)
  | one => simpa [Covers, Term.Takes, term, CharClass.has] using single (· ≠ '/')
  | segment => simpa [Covers, Term.Takes, term, CharClass.has] using without '/'
  | deep => simpa [Covers, Term.Takes, term, CharClass.has] using without '\n'

/-- What comes after a wildcard in an expression, which is never a star. -/
def expressionTail (ws : List Wildcard) : List Char := ws.flatMap expression ++ ['$']

theorem expressionTail_ne_star (ws : List Wildcard) (cs : List Char) :
    expressionTail ws ≠ '*' :: cs := by
  cases ws with
  | nil => simp [expressionTail]
  | cons w ws =>
    cases w with
    | literal c =>
      by_cases h : c ∈ special
      · simp [expressionTail, expression, h]
      · have plain : c ≠ '*' := fun star => h (by simp [star, special])
        simp [expressionTail, expression, h, plain]
    | _ => simp [expressionTail, expression]

/-- The text of a character is read as that character, whichever it is. -/
theorem readClass_literal (c : Char) (cs : List Char) :
    readClass ((literal c).expression ++ cs) = some (.exactly c, cs) := by
  by_cases h : c ∈ special
  · simp [expression, h, readClass]
  · have others : c ≠ '.' ∧ c ≠ '[' ∧ c ≠ '\\' := by
      refine ⟨?_, ?_, ?_⟩ <;> rintro rfl <;> simp [special] at h
    simp only [expression, h, if_false, List.singleton_append]
    rw [readClass] <;> simp_all

theorem readTerms_expression (w : Wildcard) (ws : List Wildcard) :
    readTerms (w.expression ++ expressionTail ws) =
      (readTerms (expressionTail ws)).map (w.term :: ·) := by
  have single := expressionTail_ne_star ws
  cases w with
  | literal c => exact readTerms_single (readClass_literal c _) single
  | one => exact readTerms_single rfl single
  | segment => exact readTerms_repeated rfl
  | deep => exact readTerms_repeated rfl

theorem readTerms_expressionTail (ws : List Wildcard) :
    readTerms (expressionTail ws) = some (ws.map term) := by
  induction ws with
  | nil => simp [expressionTail, readTerms]
  | cons w ws ih =>
    have first : expressionTail (w :: ws) = w.expression ++ expressionTail ws := by
      simp [expressionTail]
    rw [first, readTerms_expression, ih]
    rfl

end Wildcard

/-- The expression of a text can be read, one term for each wildcard. -/
theorem Pattern.read?_expressionOf (text : String) :
    read? (expressionOf text) = some ((Wildcard.parse text.toList).map Wildcard.term) :=
  Wildcard.readTerms_expressionTail (Wildcard.parse text.toList)

end CapabilityGate
