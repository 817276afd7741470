/-!
# Boundary blanks

A styled span may neither begin nor end with a blank. The class is Unicode
`White_Space` without the next-line control U+0085 and with the byte order mark
U+FEFF; it is given by its twenty-five code points, in ascending order.
-/

namespace LineMarkup.Text

/-- The code points of the boundary blanks, ascending. -/
def boundaryBlanks : List Nat :=
  [0x9, 0xA, 0xB, 0xC, 0xD, 0x20, 0xA0, 0x1680, 0x2000, 0x2001, 0x2002, 0x2003, 0x2004, 0x2005,
    0x2006, 0x2007, 0x2008, 0x2009, 0x200A, 0x2028, 0x2029, 0x202F, 0x205F, 0x3000, 0xFEFF]

/-- Whether a character is a blank for the boundary rule of styled spans. -/
def isBoundaryBlank (c : Char) : Bool := boundaryBlanks.contains c.toNat

/-- The code points of the boundary blanks between two bounds, both included. -/
def boundaryBlanksBetween (first last : Nat) : List Nat :=
  boundaryBlanks.filter fun point => first ≤ point && point ≤ last

end LineMarkup.Text
