/-!
Blank characters: what separates the words of a program and is trimmed from settings.
-/

namespace QuoteStack.Text

/-- The code points of the blanks: the white space of ASCII with its four information separators,
and the spaces and line separators of all other scripts. -/
def blankCodes : List Nat :=
  [0x09, 0x0A, 0x0B, 0x0C, 0x0D, 0x1C, 0x1D, 0x1E, 0x1F, 0x20, 0x85, 0xA0, 0x1680, 0x2000, 0x2001,
    0x2002, 0x2003, 0x2004, 0x2005, 0x2006, 0x2007, 0x2008, 0x2009, 0x200A, 0x2028, 0x2029, 0x202F,
    0x205F, 0x3000]

/-- Whether a character is a blank. -/
def isBlank (c : Char) : Bool :=
  blankCodes.contains c.toNat

/-- Removes the characters of a class at both ends of a text. -/
def trimBy (drops : Char → Bool) (text : List Char) : List Char :=
  ((text.dropWhile drops).reverse.dropWhile drops).reverse

/-- Removes the blanks at both ends of a text. -/
def trim (text : List Char) : List Char :=
  trimBy isBlank text

end QuoteStack.Text
