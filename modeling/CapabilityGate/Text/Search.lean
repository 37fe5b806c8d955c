/-!
# Occurrences of one text in another

All functions here find the same occurrences: from left to right and without overlap. `pieces sep`
cuts a text at the occurrences of `sep`, `replaceAll` writes another text in their place, and
`occursIn` asks whether there is one. `joinWith` writes a separator between pieces.
-/
namespace CapabilityGate.Text

/-- Puts `c` in front of the first piece. -/
def consFirst (c : Char) : List (List Char) → List (List Char)
  | [] => [[c]]
  | p :: ps => (c :: p) :: ps

/-- Cuts at the occurrences of `sep`, after `skip` more characters of the occurrence just met. -/
def piecesFrom (sep : List Char) : Nat → List Char → List (List Char)
  | _, [] => [[]]
  | skip + 1, _ :: cs => piecesFrom sep skip cs
  | 0, c :: cs =>
    if sep.isPrefixOf (c :: cs) then [] :: piecesFrom sep (sep.length - 1) cs
    else consFirst c (piecesFrom sep 0 cs)

/-- **`pieces sep s`** — the texts between the occurrences of the nonempty `sep` in `s`. -/
def pieces (sep s : List Char) : List (List Char) := piecesFrom sep 0 s

/-- Writes `sep` between the texts of a list. -/
def joinWith (sep : List Char) : List (List Char) → List Char
  | [] => []
  | [p] => p
  | p :: q :: ps => p ++ sep ++ joinWith sep (q :: ps)

/-- Writes `new` for the occurrences of `old`, after `skip` more characters of the occurrence just
met. -/
def replaceFrom (old new : List Char) : Nat → List Char → List Char
  | _, [] => []
  | skip + 1, _ :: cs => replaceFrom old new skip cs
  | 0, c :: cs =>
    if old.isPrefixOf (c :: cs) then new ++ replaceFrom old new (old.length - 1) cs
    else c :: replaceFrom old new 0 cs

/-- Writes `new` for every occurrence of `old`; an empty `old` occurs before and after every
character. -/
def replaceAll (old new s : List Char) : List Char :=
  if old.isEmpty then new ++ s.flatMap (fun c => c :: new) else replaceFrom old new 0 s

/-- **`occursIn needle s`** — is `needle` a run of consecutive characters of `s`. -/
def occursIn (needle : List Char) : List Char → Bool
  | [] => needle.isEmpty
  | c :: cs => needle.isPrefixOf (c :: cs) || occursIn needle cs

/-- Cuts at every `sep`; there is always one more piece than there are cuts. -/
def fields (sep : Char) : List Char → List (List Char)
  | [] => [[]]
  | c :: cs => if c = sep then [] :: fields sep cs else consFirst c (fields sep cs)

/-- The text before the first `sep` and the text after it. -/
def splitFirst (sep : Char) : List Char → Option (List Char × List Char)
  | [] => none
  | c :: cs => if c = sep then some ([], cs) else (splitFirst sep cs).map fun p => (c :: p.1, p.2)

/-- Writes `sep` between strings. -/
def joinStrings (sep : String) (ss : List String) : String := sep.intercalate ss

theorem piecesFrom_ne_nil (sep : List Char) (n : Nat) (s : List Char) :
    piecesFrom sep n s ≠ [] := by
  induction s generalizing n with
  | nil => simp [piecesFrom]
  | cons c cs ih =>
    cases n with
    | succ n => simpa [piecesFrom] using ih n
    | zero =>
      simp only [piecesFrom]
      split
      · simp
      · cases h : piecesFrom sep 0 cs with
        | nil => exact absurd h (ih 0)
        | cons p ps => simp [consFirst]

theorem joinWith_consFirst (sep : List Char) (c : Char) {ps : List (List Char)} (h : ps ≠ []) :
    joinWith sep (consFirst c ps) = c :: joinWith sep ps := by
  cases ps with
  | nil => exact absurd rfl h
  | cons p ps => cases ps <;> simp [consFirst, joinWith]

theorem joinWith_nil_cons (sep : List Char) {ps : List (List Char)} (h : ps ≠ []) :
    joinWith sep ([] :: ps) = sep ++ joinWith sep ps := by
  cases ps with
  | nil => exact absurd rfl h
  | cons p ps => simp [joinWith]

end CapabilityGate.Text
