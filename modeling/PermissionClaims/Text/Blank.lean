import PermissionClaims.Text.Ranges

/-!
# Blank characters

The characters that count as white space, in the Unicode sense and with the four separators of
ASCII, and the text between the blanks at both ends.
-/

namespace PermissionClaims.Text

def blankRanges : CodeRanges :=
  [(0x09, 0x0d), (0x1c, 0x20), (0x85, 0x85), (0xa0, 0xa0), (0x1680, 0x1680), (0x2000, 0x200a),
    (0x2028, 0x2029), (0x202f, 0x202f), (0x205f, 0x205f), (0x3000, 0x3000)]

def isBlank (c : Char) : Bool :=
  blankRanges.covers c

def trim (cs : List Char) : List Char :=
  ((cs.dropWhile isBlank).reverse.dropWhile isBlank).reverse

end PermissionClaims.Text
