import CapabilityGate.Capability.Engine

/-!
# Resource patterns

A pattern restricts the resources of a grant. Read from left to right it is a list of wildcards:
`**` stands for any characters but a line break, `*` for characters other than `/`, `?` for one
such character, and every other character for itself. A pattern is made from a text by compiling the
regular expression that its wildcards spell, so an engine can refuse it. `Pattern.matches` decides
whether a whole resource can be cut along the pattern, by a table with one row per wildcard and one
column per suffix of the resource, so the time is the product of the two lengths.
-/
namespace CapabilityGate

/-- The characters that mean something in a regular expression; with a backslash they stand for
themselves. -/
def Expression.special : List Char :=
  ['\\', '.', '+', '*', '?', '(', ')', '|', '[', ']', '\x7b', '\x7d', '^', '$', '#', '&', '-', '~']

/-- One element of a pattern. -/
inductive Wildcard where
  /-- Exactly this character. -/
  | literal (c : Char)
  /-- `?`: one character other than `/`. -/
  | one
  /-- `*`: characters other than `/`. -/
  | segment
  /-- `**`: characters other than a line break. -/
  | deep
deriving DecidableEq, Repr

namespace Wildcard

/-- Reads a pattern; two stars in a row are taken together, from the left. -/
def parse : List Char → List Wildcard
  | '*' :: '*' :: cs => deep :: parse cs
  | '*' :: cs => segment :: parse cs
  | '?' :: cs => one :: parse cs
  | c :: cs => literal c :: parse cs
  | [] => []

/-- The text of a wildcard in a regular expression. -/
def expression : Wildcard → List Char
  | literal c => if c ∈ Expression.special then ['\\', c] else [c]
  | one => ['[', '^', '/', ']']
  | segment => ['[', '^', '/', ']', '*']
  | deep => ['.', '*']

/-- Does the wildcard stand for a run of any length. -/
def isRun : Wildcard → Bool
  | segment => true
  | deep => true
  | _ => false

/-- May the wildcard take this character. -/
def takes : Wildcard → Char → Bool
  | literal d, c => c == d
  | one, c => c != '/'
  | segment, c => c != '/'
  | deep, c => c != '\n'

/-- **`w.row s later`** — with one Boolean of `later` per suffix of `s`, longest first, saying
whether the wildcards after `w` match it: the same for `w` and the wildcards after it. -/
def row (w : Wildcard) : List Char → List Bool → List Bool
  | [], later => [w.isRun && later.headD false]
  | c :: cs, later =>
    let rest := w.row cs later.tail
    let here :=
      if w.isRun then later.headD false || (w.takes c && rest.headD false)
      else w.takes c && later.tail.headD false
    here :: rest

/-- Which suffixes of `s` the wildcards match; the empty list matches the empty suffix. -/
def rows : List Wildcard → List Char → List Bool
  | [], s => List.replicate s.length false ++ [true]
  | w :: ws, s => w.row s (rows ws s)

end Wildcard

/-- A pattern as it was written; it is never empty. -/
structure Pattern where
  text : String
  text_ne : text ≠ ""
deriving DecidableEq, Repr

namespace Pattern

/-- Why a pattern is refused. -/
inductive Error where
  | empty
  /-- The engine refuses its expression. -/
  | refused (text reason : String)
deriving DecidableEq, Repr

/-- The explanation shown for a refused pattern. -/
def Error.message : Error → String
  | .empty => "resource pattern cannot be empty"
  | .refused text reason => s!"invalid resource pattern '{text}': {reason}"

/-- **`expressionOf text`** — the regular expression that a text spells as a pattern; it speaks of
whole resources. -/
def expressionOf (text : String) : List Char :=
  '^' :: (Wildcard.parse text.toList).flatMap Wildcard.expression ++ ['$']

/-- The pattern with this text, if the engine compiles its expression. -/
def parse [Engine] (text : String) : Except Error Pattern :=
  if h : text = "" then .error .empty
  else
    match Engine.refusal? (expressionOf text) with
    | some reason => .error (.refused text reason)
    | none => .ok ⟨text, h⟩

/-- The wildcards of a pattern. -/
def wildcards (p : Pattern) : List Wildcard := Wildcard.parse p.text.toList

/-- **`p.matches resource`** — can the whole resource be cut along the pattern. -/
def «matches» (p : Pattern) (resource : String) : Bool :=
  (Wildcard.rows p.wildcards resource.toList).headD false

end Pattern

end CapabilityGate
