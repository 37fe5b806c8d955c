import CapabilityGate.Text.Blank
import CapabilityGate.Text.CaseTable

/-!
# Letter case

The full case maps of the Unicode standard without locale: `upper` maps character by character,
`lower` also looks at the neighbours of a capital sigma, which becomes a final sigma at the end of
a word. `asciiLower` touches the letters A to Z only.
-/
namespace CapabilityGate.Text

/-- The image of a code point under the first span that covers it. -/
def mapBySpans (spans : List CaseSpan) (n : Nat) : Option Nat :=
  (spans.find? (·.covers n)).map fun s => ((n : Int) + s.offset).toNat

/-- The image of a character: a listed sequence, else one mapped character, else itself. -/
def mapChar (long : List (Nat × List Nat)) (spans : List CaseSpan) (c : Char) : List Char :=
  match long.find? (·.1 == c.toNat) with
  | some (_, image) => image.map Char.ofNat
  | none =>
    match mapBySpans spans c.toNat with
    | some n => [Char.ofNat n]
    | none => [c]

/-- The capital of a character. -/
def upperChar (c : Char) : List Char := mapChar longCapitals capitalSpans c

/-- The small form of a character that no neighbour changes. -/
def lowerChar (c : Char) : List Char := mapChar longSmalls smallSpans c

/-- **`endsCased cs`** — reading from the first character on, is the first one that is not case
ignorable a cased letter. -/
def endsCased (cs : List Char) : Bool :=
  match cs.dropWhile (inRanges caseIgnorableRanges) with
  | [] => false
  | c :: _ => inRanges casedRanges c

/-- Maps `cs` to small letters, where `before` holds the characters already read, last first. A
capital sigma with a cased letter before it and none after it takes the final form. -/
def lowerFrom (before : List Char) : List Char → List Char
  | [] => []
  | c :: cs =>
    let image :=
      if c = 'Σ' then
        if endsCased before && !endsCased cs then ['ς'] else ['σ']
      else lowerChar c
    image ++ lowerFrom (c :: before) cs

/-- All letters as capitals. -/
def upper (s : String) : String := String.ofList (s.toList.flatMap upperChar)

/-- All letters in their small form. -/
def lower (s : String) : String := String.ofList (lowerFrom [] s.toList)

/-- The letters A to Z in their small form, every other character as it is. -/
def asciiLower (cs : List Char) : List Char := cs.map Char.toLower

end CapabilityGate.Text
