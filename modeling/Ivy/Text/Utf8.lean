/-!
# UTF-8

The number of bytes that a lead byte announces, and the text that a range of bytes spells.
-/

namespace Ivy.Utf8

/-- The number of bytes of the character that starts with the byte `b`.  A byte that starts no
character of several bytes stands alone. -/
def width (b : UInt8) : Nat :=
  if 0xC0 ≤ b && b ≤ 0xDF then 2
  else if 0xE0 ≤ b && b ≤ 0xEF then 3
  else if 0xF0 ≤ b && b ≤ 0xF7 then 4
  else 1

theorem width_pos (b : UInt8) : 0 < width b := by
  unfold width
  split <;> (try split) <;> (try split) <;> decide

/-- The text spelled by `bytes`, empty if they are not UTF-8. -/
def textOf (bytes : ByteArray) : String :=
  (String.fromUTF8? bytes).getD ""

theorem textOf_toByteArray (s : String) : textOf s.toByteArray = s := by
  simp [textOf, String.fromUTF8?, s.isValidUTF8, String.fromUTF8]

theorem toByteArray_textOf {bytes : ByteArray} (h : bytes.IsValidUTF8) :
    (textOf bytes).toByteArray = bytes := by
  simp [textOf, String.fromUTF8?, h, String.fromUTF8]

end Ivy.Utf8
