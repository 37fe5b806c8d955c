import CapabilityGate.Proofs.Capability.Expression

/-!
# Which texts are patterns

A text becomes a pattern when an engine compiles the expression that it spells, so which texts are
patterns depends on the engine. `Pattern.Accepted` is what a text needs, and `Pattern.parse` accepts
nothing else, for every engine.

No text is refused because its expression could not be read. If an engine keeps to its limit, as
`Engine.KeepsLimit` says, only the size of the expression counts, and the engine of the program does:
a pattern of a hundred thousand question marks is too large for it.
-/
namespace CapabilityGate

open Expression

/-! ## Engines with a limit -/

namespace Engine

/-- **`KeepsLimit size limit`** — the engine compiles every expression that it can read, unless it is
larger than the limit, and then it refuses it. -/
structure KeepsLimit [Engine] (size : List Char → Nat) (limit : Nat) : Prop where
  compiles : ∀ e, (read? e).isSome → size e ≤ limit → Engine.refusal? e = none
  refuses : ∀ e, limit < size e → (Engine.refusal? e).isSome

theorem standard_keepsLimit : KeepsLimit size limit where
  compiles _ _ small := if_neg (Nat.not_lt.mpr small)
  refuses e large := by
    rw [show refusal? e = some tooLarge from if_pos large]
    rfl

end Engine

/-! ## Texts of patterns -/

namespace Pattern

section Parsing

variable [Engine] {text : String} {p : Pattern} {e : Error}

/-- The engine compiles the expression of the text. -/
def Compiles (text : String) : Prop := Engine.refusal? (expressionOf text) = none

instance : Decidable (Compiles text) :=
  inferInstanceAs (Decidable (Engine.refusal? (expressionOf text) = none))

/-- **`Accepted text`** — the text is not empty, and its expression compiles. -/
structure Accepted (text : String) : Prop where
  some : text ≠ ""
  compiles : Compiles text

theorem parse_of_ne (h : text ≠ "") :
    parse text =
      match Engine.refusal? (expressionOf text) with
      | some reason => .error (.refused text reason)
      | none => .ok ⟨text, h⟩ :=
  dif_neg h

theorem parse_eq_ok_iff : parse text = .ok p ↔ p.text = text ∧ Compiles text := by
  by_cases empty : text = ""
  · subst empty
    constructor
    · intro h
      cases h
    · rintro ⟨same, -⟩
      exact absurd same p.text_ne
  · rw [parse_of_ne empty, Compiles]
    cases Engine.refusal? (expressionOf text) with
    | some reason => simp
    | none =>
      obtain ⟨written, _⟩ := p
      simp [eq_comm]

theorem exists_parse_iff : (∃ p, parse text = .ok p) ↔ Accepted text := by
  simp only [parse_eq_ok_iff]
  constructor
  · rintro ⟨p, rfl, compiles⟩
    exact ⟨p.text_ne, compiles⟩
  · rintro ⟨written, compiles⟩
    exact ⟨⟨text, written⟩, rfl, compiles⟩

theorem parse_eq_error_iff (written : text ≠ "") :
    parse text = .error e ↔
      ∃ reason, Engine.refusal? (expressionOf text) = some reason ∧ e = .refused text reason := by
  rw [parse_of_ne written]
  cases Engine.refusal? (expressionOf text) <;> simp [eq_comm]

/-- With a limit, only the size of its expression decides whether a text is a pattern. -/
theorem accepted_iff_size {size : List Char → Nat} {limit : Nat}
    (keeps : Engine.KeepsLimit size limit) (written : text ≠ "") :
    Accepted text ↔ size (expressionOf text) ≤ limit := by
  constructor
  · intro accepted
    by_contra large
    have refused := keeps.refuses _ (Nat.not_le.mp large)
    rw [show Engine.refusal? _ = none from accepted.compiles] at refused
    cases refused
  · intro small
    exact ⟨written, keeps.compiles _ (by rw [read?_expressionOf]; rfl) small⟩

end Parsing

end Pattern

/-- **What a pattern means.** The empty text is no pattern. Every other text spells exactly one list
of wildcards and an expression that can be read; it is a pattern if the engine compiles that
expression, and otherwise it is refused with the engine's explanation. If it is a pattern, a resource
matches if and only if the whole of it can be cut into consecutive pieces, one per wildcard and each
of the form that its wildcard stands for, and the expression means the same. An engine that keeps to
a limit compiles exactly the expressions of patterns that are within it. -/
theorem pattern_semantics [Engine] :
    Pattern.parse "" = .error .empty ∧
    ∀ text : String, text ≠ "" → ∃ ws terms,
      (∀ spelled, Wildcard.Spells text.toList spelled ↔ spelled = ws) ∧
      read? (Pattern.expressionOf text) = some terms ∧
      (∀ p, Pattern.parse text = .ok p ↔ p.text = text ∧ Pattern.Compiles text) ∧
      (∀ e, Pattern.parse text = .error e ↔ ∃ reason,
        Engine.refusal? (Pattern.expressionOf text) = some reason ∧ e = .refused text reason) ∧
      (∀ p, Pattern.parse text = .ok p → ∀ resource,
        (p.matches resource = true ↔ Cut Wildcard.Covers ws resource.toList) ∧
        (p.matches resource = true ↔ Cut Term.Takes terms resource.toList)) ∧
      ∀ size limit, Engine.KeepsLimit size limit →
        ((∃ p, Pattern.parse text = .ok p) ↔ size (Pattern.expressionOf text) ≤ limit) := by
  refine ⟨rfl, fun text written => ?_⟩
  refine ⟨Wildcard.parse text.toList, _, fun _ => Wildcard.spells_iff,
    Pattern.read?_expressionOf text, fun p => Pattern.parse_eq_ok_iff,
    fun e => Pattern.parse_eq_error_iff written, ?_, ?_⟩
  · intro p parsed resource
    obtain ⟨rfl, -⟩ := Pattern.parse_eq_ok_iff.mp parsed
    have cut := p.matches_iff_cut resource
    refine ⟨cut, ?_⟩
    rw [cut, Cut.map_iff, Cut.congr Wildcard.covers_iff_takes]
    rfl
  · intro size limit keeps
    rw [Pattern.exists_parse_iff, Pattern.accepted_iff_size keeps written]

/-- A pattern with two wildcards and a dot is small enough, and it can be cut at a log file two levels
down. -/
theorem pattern_semantics_log_files :
    "/**.l?g" ≠ "" ∧ Engine.KeepsLimit Engine.size Engine.limit ∧
      ∃ p, Pattern.parse "/**.l?g" = .ok p ∧ p.matches "/a/b.log" = true := by
  have written : "/**.l?g" ≠ "" := by decide
  have keeps := Engine.standard_keepsLimit
  obtain ⟨ws, terms, spells, -, -, -, cut, small⟩ := pattern_semantics.2 "/**.l?g" written
  obtain ⟨p, parsed⟩ := (small _ _ keeps).mpr (by decide)
  refine ⟨written, keeps, p, parsed, (cut p parsed "/a/b.log").1.mpr ?_⟩
  have spelled : Wildcard.Spells "/**.l?g".toList
      [.literal '/', .deep, .literal '.', .literal 'l', .one, .literal 'g'] :=
    .literal (by decide) (by decide) <| .deep <| .literal (by decide) (by decide) <|
      .literal (by decide) (by decide) <| .one <| .literal (by decide) (by decide) .done
  rw [← (spells _).mp spelled]
  have pieces : List.Forall₂ Wildcard.Covers
      [.literal '/', .deep, .literal '.', .literal 'l', .one, .literal 'g']
      [['/'], ['a', '/', 'b'], ['.'], ['l'], ['o'], ['g']] :=
    .cons rfl <| .cons (by simp [Wildcard.Covers]) <| .cons rfl <| .cons rfl <|
      .cons ⟨'o', by decide, rfl⟩ <| .cons rfl .nil
  exact ⟨_, pieces, rfl⟩

/-! ## A pattern that is too large -/

/-- **`questions n`** — a pattern of so many question marks. -/
def questions (n : Nat) : String := String.ofList (List.replicate n '?')

theorem parse_questions (n : Nat) :
    Wildcard.parse (List.replicate n '?') = List.replicate n .one := by
  induction n with
  | zero => rfl
  | succ n ih => exact congrArg (Wildcard.one :: ·) ih

theorem size_ones (n : Nat) :
    Engine.size ((List.replicate n Wildcard.one).flatMap Wildcard.expression ++ ['$']) =
      n * Engine.classSize + Engine.stateSize := by
  induction n with
  | zero => rfl
  | succ n ih =>
    show Engine.classSize + Engine.size
      ((List.replicate n Wildcard.one).flatMap Wildcard.expression ++ ['$']) = _
    rw [ih, Nat.succ_mul]
    omega

theorem size_expressionOf_questions (n : Nat) :
    Engine.size (Pattern.expressionOf (questions n)) =
      n * Engine.classSize + 2 * Engine.stateSize := by
  show Engine.stateSize + Engine.size
    ((Wildcard.parse (questions n).toList).flatMap Wildcard.expression ++ ['$']) = _
  rw [questions, String.toList_ofList, parse_questions, size_ones]
  omega

theorem questions_ne_empty : questions 100000 ≠ "" := by
  rw [questions, ne_eq, ← String.toList_eq_nil_iff, String.toList_ofList, List.replicate_eq_nil_iff]
  decide

theorem refusal?_questions :
    Engine.refusal? (Pattern.expressionOf (questions 100000)) = some Engine.tooLarge := by
  have large : Engine.limit < Engine.size (Pattern.expressionOf (questions 100000)) := by
    rw [size_expressionOf_questions]
    decide
  exact if_pos large

/-- A text that is not empty, and no pattern. -/
theorem large_pattern_refused :
    questions 100000 ≠ "" ∧
      Pattern.parse (questions 100000) = .error (.refused (questions 100000) Engine.tooLarge) :=
  ⟨questions_ne_empty,
    (Pattern.parse_eq_error_iff questions_ne_empty).mpr ⟨_, refusal?_questions, rfl⟩⟩

end CapabilityGate
