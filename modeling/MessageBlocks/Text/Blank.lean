/-!
# Blank characters and trimming

Text is trimmed in three ways in this library: by every character with the
Unicode property `White_Space`, by the plain space alone, and by line feeds.
All three are `trimBy` with a different class of characters.
-/

namespace MessageBlocks.Text

/-- Whether a character has the Unicode property `White_Space`. -/
def isBlank (character : Char) : Bool :=
  let code := character.toNat
  (9 ≤ code && code ≤ 13) || code == 0x20 || code == 0x85 || code == 0xA0 ||
    code == 0x1680 || (0x2000 ≤ code && code ≤ 0x200A) || code == 0x2028 ||
    code == 0x2029 || code == 0x202F || code == 0x205F || code == 0x3000

def trimStartBy (discard : Char → Bool) (text : List Char) : List Char :=
  text.dropWhile discard

def trimEndBy (discard : Char → Bool) (text : List Char) : List Char :=
  (text.reverse.dropWhile discard).reverse

/-- Drop the characters of a class at both ends. -/
def trimBy (discard : Char → Bool) (text : List Char) : List Char :=
  trimEndBy discard (trimStartBy discard text)

def trim (text : List Char) : List Char :=
  trimBy isBlank text

def trimSpaces (text : List Char) : List Char :=
  trimBy (· == ' ') text

def trimLineFeeds (text : List Char) : List Char :=
  trimBy (· == '\n') text

def isBlankText (text : List Char) : Bool :=
  text.all isBlank

end MessageBlocks.Text
