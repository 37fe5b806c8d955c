import CapabilityGate.Proofs.Primitive.Surface
import CapabilityGate.Proofs.Text.Fields
import CapabilityGate.Proofs.Text.Occurrences

/-!
# The methods of texts agree

Four methods look for the occurrences of one text in another: `split`, `replace`, `contains` and
`startswith`. Each of them scans the text on its own. `text_methods_agree` says that they see the same
occurrences: there is one list of pieces, by which all four of them are described.
-/
namespace CapabilityGate

namespace Primitive

variable {s sep : String}

/-- **`textPieces sep s`** — what `split` cuts a text into. -/
def textPieces (sep s : String) : List String :=
  (Text.pieces sep.toList s.toList).map String.ofList

theorem toList_textPieces (sep s : String) :
    (textPieces sep s).map String.toList = Text.pieces sep.toList s.toList := by
  simp [textPieces, Function.comp_def]

theorem cuts_textPieces (notEmpty : sep ≠ "") :
    Text.Cuts sep.toList s.toList ((textPieces sep s).map String.toList) := by
  rw [toList_textPieces]
  exact Text.cuts_pieces (by simpa using notEmpty) s.toList

theorem apply_textSplit (notEmpty : sep ≠ "") :
    textSplit.apply (.str s) [.str sep] = .ok (.list ((textPieces sep s).map .str)) := by
  have filled : sep.isEmpty = false := by simpa using notEmpty
  show (if sep.isEmpty then _ else _) = _
  rw [filled, textPieces, List.map_map]
  rfl

theorem apply_textReplace (notEmpty : sep ≠ "") (t : String) :
    textReplace.apply (.str s) [.str sep, .str t] =
      .ok (.str (t.intercalate (textPieces sep s))) := by
  have replaced : Text.replaceAll sep.toList t.toList s.toList =
      (Text.joinStrings t (textPieces sep s)).toList := by
    rw [Text.toList_joinStrings, toList_textPieces]
    exact Text.replaceAll_eq_joinWith (by simpa using notEmpty) t.toList s.toList
  show Except.ok (textValue (Text.replaceAll sep.toList t.toList s.toList)) = _
  rw [replaced, textValue, String.ofList_toList]
  rfl

theorem apply_textContains (notEmpty : sep ≠ "") :
    textContains.apply (.str s) [.str sep] = .ok (.bool (decide (1 < (textPieces sep s).length))) := by
  have several := (cuts_textPieces (s := s) notEmpty).several_iff
  rw [List.length_map] at several
  have answer : Text.occursIn sep.toList s.toList = decide (1 < (textPieces sep s).length) := by
    rw [Bool.eq_iff_iff, Text.occursIn_iff, decide_eq_true_iff, several]
  rw [← answer]
  rfl

theorem apply_textStartsWith (notEmpty : sep ≠ "") :
    textStartsWith.apply (.str s) [.str sep] =
      .ok (.bool (decide (1 < (textPieces sep s).length ∧ (textPieces sep s).head? = some ""))) := by
  have first : ((textPieces sep s).map String.toList).head? = some [] ↔
      (textPieces sep s).head? = some "" := by
    rw [List.head?_map, Option.map_eq_some_iff]
    simp
  have starts := (cuts_textPieces (s := s) notEmpty).starts_iff
  rw [List.length_map, first] at starts
  have answer : sep.toList.isPrefixOf s.toList =
      decide (1 < (textPieces sep s).length ∧ (textPieces sep s).head? = some "") := by
    rw [Bool.eq_iff_iff, List.isPrefixOf_iff_prefix, decide_eq_true_iff, starts]
  rw [← answer]
  rfl

end Primitive

/-- **The methods of texts see the same occurrences.** For every text and every separator that is not
empty there is one list of pieces, cut from left to right at the occurrences of the separator: at
least one piece, none of which holds the separator, and with the separator between them they are the
text. Through any gate, `split` gives these pieces, `replace` puts the other text between them,
`contains` says whether there are several, and `startswith` whether there are several and the first
one is empty. -/
theorem text_methods_agree (s sep : String) (notEmpty : sep ≠ "") :
    ∃ pieces : List String,
      Text.Cuts sep.toList s.toList (pieces.map String.toList) ∧ pieces ≠ [] ∧
      (∀ piece ∈ pieces, ¬ sep.toList <:+: piece.toList) ∧ sep.intercalate pieces = s ∧
      ∀ (g : Gate) (run : Script → Activity Ending) (m : Machine),
        m.world.isExhausted g.budget = false → m.thread.depth < maxDepth →
        g.Answers run (.method (.str s) "split") [.str sep] m (.ok (.list (pieces.map .str))) ∧
        (∀ t, g.Answers run (.method (.str s) "replace") [.str sep, .str t] m
          (.ok (.str (t.intercalate pieces)))) ∧
        g.Answers run (.method (.str s) "contains") [.str sep] m
          (.ok (.bool (decide (1 < pieces.length)))) ∧
        g.Answers run (.method (.str s) "startswith") [.str sep] m
          (.ok (.bool (decide (1 < pieces.length ∧ pieces.head? = some "")))) := by
  have cuts := Primitive.cuts_textPieces (s := s) notEmpty
  refine ⟨Primitive.textPieces sep s, cuts, ?_, ?_, ?_, ?_⟩
  · exact fun empty => cuts.ne_nil (congrArg (List.map String.toList) empty)
  · intro piece member
    exact cuts.absent_of_mem (List.mem_map_of_mem member)
  · rw [← String.toList_inj, ← cuts.joinWith_eq]
    exact Text.toList_joinStrings sep _
  · intro g run m live room
    refine ⟨?_, ?_, ?_, ?_⟩
    · exact Gate.answers_value (k := .str) live room (by decide) rfl
        (Primitive.apply_textSplit notEmpty)
    · intro t
      exact Gate.answers_value (k := .str) live room (by decide) rfl
        (Primitive.apply_textReplace notEmpty t)
    · exact Gate.answers_value (k := .str) live room (by decide) rfl
        (Primitive.apply_textContains notEmpty)
    · exact Gate.answers_value (k := .str) live room (by decide) rfl
        (Primitive.apply_textStartsWith notEmpty)

/-- Of three letters the first two are taken together, so the pieces are the empty text and the last
letter. -/
theorem text_methods_agree_overlapping :
    "aa" ≠ "" ∧ Machine.initial.world.isExhausted emptyGate.budget = false ∧
    Machine.initial.thread.depth < maxDepth ∧
    emptyGate.Answers emptyGate.run (.method (.str "aaa") "split") [.str "aa"] .initial
      (.ok (.list [.str "", .str "a"])) ∧
    emptyGate.Answers emptyGate.run (.method (.str "aaa") "replace") [.str "aa", .str "b"] .initial
      (.ok (.str "ba")) ∧
    emptyGate.Answers emptyGate.run (.method (.str "aaa") "startswith") [.str "aa"] .initial
      (.ok (.bool true)) := by
  have notEmpty : "aa" ≠ "" := by decide
  have live : Machine.initial.world.isExhausted emptyGate.budget = false := rfl
  have room : Machine.initial.thread.depth < maxDepth := by decide
  obtain ⟨pieces, -, -, -, -, agree⟩ := text_methods_agree "aaa" "aa" notEmpty
  obtain ⟨cut, replaced, -, starts⟩ := agree emptyGate emptyGate.run .initial live room
  have parts : emptyGate.Answers emptyGate.run (.method (.str "aaa") "split") [.str "aa"] .initial
      (.ok (.list (["", "a"].map .str))) :=
    Gate.answers_value (k := .str) (p := .textSplit) live room (by decide) rfl rfl
  have found : pieces = ["", "a"] := by
    have same := cut.unique parts
    injection same with same
    injection same with same
    exact List.map_injective_iff.mpr (fun _ _ h => Value.str.inj h) same
  subst found
  exact ⟨notEmpty, live, room, cut, replaced "b", starts⟩

end CapabilityGate
