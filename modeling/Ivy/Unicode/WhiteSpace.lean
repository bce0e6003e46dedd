import Ivy.Unicode.Ranges

/-!
# White space

The characters with the property `White_Space` of Unicode 17.0.
-/

namespace Ivy.Unicode

/-- The ranges of code points with the property `White_Space`. -/
def whiteSpaceRanges : Ranges :=
  #[(0x9, 0xD), (0x20, 0x20), (0x85, 0x85), (0xA0, 0xA0), (0x1680, 0x1680), (0x2000, 0x200A),
    (0x2028, 0x2029), (0x202F, 0x202F), (0x205F, 0x205F), (0x3000, 0x3000)]

/-- Whether `c` has the property `White_Space`. -/
def isWhiteSpace (c : Char) : Bool := inRanges whiteSpaceRanges c.toNat

end Ivy.Unicode
