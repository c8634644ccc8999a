import WatTypes.Text.CodePoints

/-!
# Blank characters

The characters that count as blank in running text: the white space of Unicode together with the
four separators U+001C to U+001F.
-/

set_option autoImplicit false
set_option relaxedAutoImplicit false

namespace WatTypes.Text

/-- The code points of the blank characters. -/
def blanks : CodePoints where
  runs := [
    (0x9, 0xd), (0x1c, 0x20), (0x85, 0x85), (0xa0, 0xa0), (0x1680, 0x1680), (0x2000, 0x200a),
    (0x2028, 0x2029), (0x202f, 0x202f), (0x205f, 0x205f), (0x3000, 0x3000)]

/-- Whether a character is blank. -/
def isBlank (c : Char) : Bool := blanks.contains c

end WatTypes.Text
