/-!
# Blank characters

The characters with the Unicode property `White_Space`, and the removal of blanks around a text.
-/

namespace PrivateFootage.Text

/-- The code point ranges of the Unicode property `White_Space`, both ends included. -/
def blankRanges : List (Nat × Nat) :=
  [(0x09, 0x0D), (0x20, 0x20), (0x85, 0x85), (0xA0, 0xA0), (0x1680, 0x1680), (0x2000, 0x200A),
    (0x2028, 0x2029), (0x202F, 0x202F), (0x205F, 0x205F), (0x3000, 0x3000)]

/-- Whether a character has the Unicode property `White_Space`. -/
def isBlank (character : Char) : Bool :=
  blankRanges.any fun (first, last) => first ≤ character.toNat && character.toNat ≤ last

/-- Drop the blanks at the front. -/
def trimLeft (characters : List Char) : List Char :=
  characters.dropWhile isBlank

/-- Drop the blanks at both ends. -/
def trim (characters : List Char) : List Char :=
  (trimLeft (trimLeft characters).reverse).reverse

/-- Map the capital letters of ASCII to small ones and leave all else. -/
def lower (characters : List Char) : List Char :=
  characters.map Char.toLower

end PrivateFootage.Text
