import Ivy.Fault
import Ivy.Text.Utf8

/-!
# Sources

A `Source` is a text laid out for scanning: its bytes in UTF-8, followed by zeros up to the next
multiple of 64, at least one.  A scan may therefore read on past the last byte of the text and
meets a zero there; only a read behind the padding is a fault.

`Source.ofString` lays a text out.  `Source.text` and `Source.slice` are the two ways to get text
back: the first answers a range that does not lie in the text with the empty string, the second
with a fault.
-/

namespace Ivy

/-- A text laid out for scanning. -/
structure Source where
  /-- The bytes of the text, then zeros. -/
  buffer : ByteArray
  /-- The number of bytes of the text. -/
  length : Nat

/-- The size of the buffer for a text of `length` bytes: the least multiple of 64 above it. -/
def paddedSize (length : Nat) : Nat := 64 * (length / 64 + 1)

theorem lt_paddedSize (length : Nat) : length < paddedSize length := by
  unfold paddedSize; omega

/-- The largest offset up to `n` that lies on a character boundary of `s`. -/
def boundaryBelow (s : String) : Nat → Nat
  | 0 => 0
  | n + 1 => if String.Pos.Raw.isValid s ⟨n + 1⟩ then n + 1 else boundaryBelow s n

/-- The number of bytes of `s` that can be addressed: all of them, or, if they are more than
`limit`, those of the longest run of whole characters that fits. -/
def addressable (s : String) (limit : Nat) : Nat :=
  if s.utf8ByteSize ≤ limit then s.utf8ByteSize else boundaryBelow s limit

theorem addressable_eq_size {s : String} {limit : Nat} (h : s.utf8ByteSize ≤ limit) :
    addressable s limit = s.utf8ByteSize := if_pos h

theorem boundaryBelow_le (s : String) (n : Nat) : boundaryBelow s n ≤ n := by
  fun_induction boundaryBelow s n with
  | case1 => exact Nat.le_refl 0
  | case2 => exact Nat.le_refl _
  | case3 n _ ih => exact Nat.le_succ_of_le ih

theorem addressable_lt_size_iff {s : String} {limit : Nat} :
    addressable s limit < s.utf8ByteSize ↔ limit < s.utf8ByteSize := by
  have hle := boundaryBelow_le s limit
  unfold addressable
  split
  · omega
  · omega

namespace Source

/-- The source of the text `s`. -/
def ofString (s : String) : Source :=
  let length := addressable s maxOffset
  { buffer := s.toByteArray.extract 0 length ++
      (List.replicate (paddedSize length - length) 0).toByteArray
    length }

/-- The bytes of the text. -/
def bytes (src : Source) : ByteArray := src.buffer.extract 0 src.length

/-- Whether the text has no bytes. -/
def isEmpty (src : Source) : Bool := src.length == 0

/-- The byte at offset `i`, zero outside the buffer. -/
def byteAt (src : Source) (i : Nat) : UInt8 :=
  if h : i < src.buffer.size then src.buffer[i] else 0

/-- The byte at offset `i`. -/
def read (src : Source) (i : Nat) : Except Fault UInt8 :=
  if h : i < src.buffer.size then .ok src.buffer[i]
  else .error (.byteBeyondBuffer src.buffer.size i)

/-- The text from `start` to `stop`.  It is empty if the range does not lie in the text or cuts
a character. -/
def text (src : Source) (start stop : Nat) : String :=
  if start ≤ stop ∧ stop ≤ src.length then Utf8.textOf (src.buffer.extract start stop) else ""

/-- The text from `start` to `stop`, a range of the text. -/
def slice (src : Source) (start stop : Nat) : Except Fault String :=
  if src.length < stop then .error (.stopBeyondText stop src.length)
  else if stop < start then .error (.startBeyondStop start stop)
  else .ok (Utf8.textOf (src.buffer.extract start stop))

/-! ## Laws of the layout -/

theorem length_ofString {s : String} (h : s.utf8ByteSize ≤ maxOffset) :
    (ofString s).length = s.utf8ByteSize := addressable_eq_size h

theorem buffer_ofString {s : String} (h : s.utf8ByteSize ≤ maxOffset) :
    (ofString s).buffer = s.toByteArray ++
      (List.replicate (paddedSize s.utf8ByteSize - s.utf8ByteSize) 0).toByteArray := by
  simp [ofString, addressable_eq_size h, ← String.size_toByteArray]

theorem size_buffer_ofString {s : String} (h : s.utf8ByteSize ≤ maxOffset) :
    (ofString s).buffer.size = paddedSize s.utf8ByteSize := by
  have := lt_paddedSize s.utf8ByteSize
  simp [buffer_ofString h, ByteArray.size_append]
  omega

theorem bytes_ofString {s : String} (h : s.utf8ByteSize ≤ maxOffset) :
    (ofString s).bytes = s.toByteArray := by
  unfold bytes
  rw [buffer_ofString h, length_ofString h, ByteArray.extract_append_eq_left]
  simp

theorem read_eq_ok_iff {src : Source} {i : Nat} {b : UInt8} :
    src.read i = .ok b ↔ i < src.buffer.size ∧ src.byteAt i = b := by
  unfold read byteAt
  split <;> simp [*]

end Source

end Ivy
