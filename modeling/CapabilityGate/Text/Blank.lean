/-!
# White space

`isBlank` is the White_Space property of the Unicode standard, and the three readers built on it:
`trim` drops blanks at both ends, `trimEnd` at the end only, and `words` lists the maximal runs of
characters that are not blank. Core's `Char.isWhitespace` knows only four ASCII characters, so it is
not used.
-/
namespace CapabilityGate.Text

/-- The closed ranges of code points with the White_Space property. -/
def blankRanges : List (Nat × Nat) :=
  [(0x9, 0xD), (0x20, 0x20), (0x85, 0x85), (0xA0, 0xA0), (0x1680, 0x1680), (0x2000, 0x200A),
   (0x2028, 0x2029), (0x202F, 0x202F), (0x205F, 0x205F), (0x3000, 0x3000)]

/-- **`inRanges rs c`** — does the code point of `c` lie in one of the closed ranges `rs`. -/
def inRanges (rs : List (Nat × Nat)) (c : Char) : Bool :=
  rs.any fun r => r.1 ≤ c.toNat && c.toNat ≤ r.2

/-- **`isBlank c`** — has `c` the White_Space property. -/
def isBlank (c : Char) : Bool := inRanges blankRanges c

/-- Drops the blanks at the end. -/
def trimEnd (cs : List Char) : List Char := (cs.reverse.dropWhile isBlank).reverse

/-- Drops the blanks at both ends. -/
def trimChars (cs : List Char) : List Char := trimEnd (cs.dropWhile isBlank)

/-- Drops the blanks at both ends of a string. -/
def trim (s : String) : String := String.ofList (trimChars s.toList)

/-- Reads the word that `cs` continues (`word`, in reverse) and the words after it. -/
def wordsFrom (word : List Char) : List Char → List (List Char)
  | [] => if word.isEmpty then [] else [word.reverse]
  | c :: cs =>
    if isBlank c then
      if word.isEmpty then wordsFrom [] cs else word.reverse :: wordsFrom [] cs
    else wordsFrom (c :: word) cs

/-- The maximal runs of characters that are not blank, in order. -/
def words (cs : List Char) : List (List Char) := wordsFrom [] cs

end CapabilityGate.Text
