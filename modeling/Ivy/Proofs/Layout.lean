import Ivy.Proofs.Remaining
import Mathlib.Order.Bounds.Basic

/-!
# Reading the buffer of a text

The buffer of a text holds its bytes and then zeros up to the least multiple of 64 above their
number, and a read from there on is a fault (`ofString_readsBack`).  A position in a text looks one
byte ahead, from the end of the text into the padding.  There is a second byte of padding unless the
text lacks one byte of whole blocks of 64, and only then looking ahead is a fault
(`nextByte_looksAhead`).
-/

namespace Ivy

section PaddedSize

variable {n i : Nat}

/-- One byte ahead there is room, except from the end of a text that leaves room for one zero. -/
theorem succ_lt_paddedSize_iff (h : i ≤ n) :
    i + 1 < paddedSize n ↔ ¬ (i = n ∧ n % 64 = 63) := by
  unfold paddedSize
  omega

theorem paddedSize_eq_succ (h : n % 64 = 63) : paddedSize n = n + 1 := by
  unfold paddedSize
  omega

theorem isLeast_paddedSize (n : Nat) : IsLeast {m | 64 ∣ m ∧ n < m} (paddedSize n) := by
  constructor
  · exact ⟨Nat.dvd_mul_right .., lt_paddedSize n⟩
  · rintro m ⟨⟨k, rfl⟩, hlt⟩
    unfold paddedSize
    omega

/-- In a word of 64 bits, clearing the lowest six bits gives the multiple of 64 below it. -/
theorem and_eq_mul_div {w : Nat} (h : w ≤ 0xFFFFFFFFFFFFFFFF) :
    w &&& 0xFFFFFFFFFFFFFFC0 = 64 * (w / 64) := by
  have hmask : 0xFFFFFFFFFFFFFFC0 = 2 ^ 6 * (2 ^ 58 - 1) := rfl
  have hblock : 64 = 2 ^ 6 := rfl
  apply Nat.eq_of_testBit_eq
  intro j
  rw [hmask, hblock, Nat.testBit_and, Nat.testBit_two_pow_mul, Nat.testBit_two_pow_sub_one,
    Nat.testBit_two_pow_mul, Nat.testBit_div_two_pow]
  by_cases hj : 6 ≤ j
  · by_cases hlt : j < 64
    · have hsub : j - 6 < 58 := by omega
      simp [hj, hsub]
    · have hpow : 2 ^ 64 ≤ 2 ^ j := Nat.pow_le_pow_right (by decide) (by omega)
      have hbit : w.testBit j = false := Nat.testBit_lt_two_pow (by omega)
      simp [hj, hbit]
  · simp [hj]

/-- The padded size is found without division, by clearing the lowest bits of a word. -/
theorem paddedSize_eq_and (h : n ≤ maxOffset) :
    paddedSize n = ((UInt64.ofNat n + 1 + 64 - 1) &&& ~~~(64 - 1)).toNat := by
  have hmax : n ≤ 0xFFFFFFFF := h
  have hword : (UInt64.ofNat n + 1 + 64 - 1).toNat = n + 64 := by
    simp only [UInt64.toNat_sub, UInt64.toNat_add, UInt64.toNat_ofNat', UInt64.reduceToNat]
    omega
  have hmask : (~~~(64 - 1) : UInt64).toNat = 0xFFFFFFFFFFFFFFC0 := by decide
  rw [UInt64.toNat_and, hword, hmask, and_eq_mul_div (by omega)]
  unfold paddedSize
  omega

end PaddedSize

/-! ## The layout -/

/-- Whether there is room behind the text for an end mark, and a zero stands there. -/
structure Source.HasEndMark (src : Source) : Prop where
  length_lt : src.length < src.buffer.size
  byte_eq_zero : src.buffer[src.length] = 0

/-- Whether a source is `text` laid out for scanning. -/
structure Source.LaysOut (src : Source) (text : String) : Prop where
  length_eq : src.length = text.utf8ByteSize
  /-- The bytes in front are those of the text. -/
  bytes_eq : src.bytes = text.toByteArray
  isLeast_size : IsLeast {m | 64 ∣ m ∧ text.utf8ByteSize < m} src.buffer.size
  size_eq_and : src.buffer.size =
    ((UInt64.ofNat text.utf8ByteSize + 1 + 64 - 1) &&& ~~~(64 - 1)).toNat
  padding_eq_zero : ∀ (i : Nat) (h : i < src.buffer.size), src.length ≤ i → src.buffer[i] = 0
  hasEndMark : src.HasEndMark

/-- Whether the byte at a position is that of the text, a zero behind it, and a fault from the end
of the buffer on. -/
structure Position.Reads (p : Position) (text : String) : Prop where
  byte_of_lt : ∀ h : p.offset < text.toByteArray.size, p.byte = .ok text.toByteArray[p.offset]
  byte_of_ge : text.utf8ByteSize ≤ p.offset → p.offset < p.source.buffer.size → p.byte = .ok 0
  byte_eq_error_iff : ∀ fault, p.byte = .error fault ↔
    p.source.buffer.size ≤ p.offset ∧
      fault = .byteBeyondBuffer p.source.buffer.size p.offset

theorem Source.WellLaid.buffer_eq_zero {src : Source} (h : src.WellLaid) {i : Nat}
    (hi : i < src.buffer.size) (hle : src.length ≤ i) : src.buffer[i] = 0 := by
  have hzero := h.byteAt_eq_zero i hle
  rwa [Source.byteAt, dif_pos hi] at hzero

section Read

variable {text : String}

/-- A read gives a byte of the text or a zero behind it, up to the padded size. -/
theorem Source.read_ofString (h : text.utf8ByteSize ≤ maxOffset) (i : Nat) :
    (Source.ofString text).read i =
      if i < paddedSize text.utf8ByteSize then .ok (((Utf8.bytesOf text)[i]?).getD 0)
      else .error (.byteBeyondBuffer (paddedSize text.utf8ByteSize) i) := by
  have hsize := size_buffer_ofString h
  by_cases hi : i < paddedSize text.utf8ByteSize
  · have hbyte := (wellLaid_ofString h).byteAt_eq i
    rw [content_ofString h] at hbyte
    rw [if_pos hi, read_eq_ok_iff, hsize]
    exact ⟨hi, hbyte⟩
  · rw [if_neg hi, read, dif_neg (by rwa [hsize]), hsize]

theorem laysOut_ofString (h : text.utf8ByteSize ≤ maxOffset) :
    (Source.ofString text).LaysOut text where
  length_eq := Source.length_ofString h
  bytes_eq := Source.bytes_ofString h
  isLeast_size := by
    rw [Source.size_buffer_ofString h]
    exact isLeast_paddedSize _
  size_eq_and := by rw [Source.size_buffer_ofString h, paddedSize_eq_and h]
  padding_eq_zero _ := (Source.wellLaid_ofString h).buffer_eq_zero
  hasEndMark :=
    { length_lt := (Source.wellLaid_ofString h).length_lt
      byte_eq_zero := (Source.wellLaid_ofString h).buffer_eq_zero _ (Nat.le_refl _) }

theorem reads_ofString {p : Position} (h : text.utf8ByteSize ≤ maxOffset)
    (hsource : p.source = Source.ofString text) : p.Reads text := by
  have hsize : p.source.buffer.size = paddedSize text.utf8ByteSize := by
    rw [hsource, Source.size_buffer_ofString h]
  have hbyte : p.byte = _ := hsource ▸ Source.read_ofString h p.offset
  constructor
  · intro hlt
    have hlt' : p.offset < paddedSize text.utf8ByteSize :=
      Nat.lt_trans hlt (lt_paddedSize text.utf8ByteSize)
    rw [hbyte, if_pos hlt', List.getElem?_eq_getElem (by simpa [Utf8.bytesOf] using hlt)]
    rfl
  · intro hge hlt
    rw [hsize] at hlt
    rw [hbyte, if_pos hlt, List.getElem?_eq_none (by rwa [Utf8.length_bytesOf])]
    rfl
  · intro fault
    rw [hbyte, hsize]
    split
    · simp
      omega
    · next hge => simp [Nat.le_of_not_lt hge, eq_comm]

/-- A buffer holds a text and zeros behind it, and reads at every position give just these. -/
theorem ofString_readsBack (h : text.utf8ByteSize ≤ maxOffset) :
    (Source.ofString text).LaysOut text ∧
      ∀ p : Position, p.source = Source.ofString text → p.Reads text :=
  ⟨laysOut_ofString h, fun _ hsource => reads_ofString h hsource⟩

/-- A zero in the text is one of its bytes. -/
theorem ofString_readsBack_interior : "a\x00é".utf8ByteSize ≤ maxOffset ∧
    (Source.ofString "a\x00é").LaysOut "a\x00é" ∧
    ∀ p : Position, p.source = Source.ofString "a\x00é" → p.Reads "a\x00é" :=
  ⟨by decide, ofString_readsBack (by decide)⟩

/-! ## Looking ahead -/

/-- Looking ahead is a read one byte further on, with room for it but in one case. -/
theorem nextByte_ofString {p : Position} (h : text.utf8ByteSize ≤ maxOffset)
    (hsource : p.source = Source.ofString text) (hp : p.offset ≤ text.utf8ByteSize) :
    p.nextByte =
      if p.offset = text.utf8ByteSize ∧ text.utf8ByteSize % 64 = 63 then
        .error (.byteBeyondBuffer (text.utf8ByteSize + 1) (text.utf8ByteSize + 1))
      else .ok (((Utf8.bytesOf text)[p.offset + 1]?).getD 0) := by
  rw [Position.nextByte, hsource, Source.read_ofString h]
  split
  · next hlt => rw [if_neg ((succ_lt_paddedSize_iff hp).1 hlt)]
  · next hge =>
    have hfull := Decidable.not_not.1 (mt (succ_lt_paddedSize_iff hp).2 hge)
    rw [if_pos hfull, paddedSize_eq_succ hfull.2, hfull.1]

/-- Looking ahead gives the next byte of the text, or a zero where there is none.  The one exception
is the end of a text that lacks one byte of whole blocks. -/
theorem nextByte_looksAhead {p : Position} (h : text.utf8ByteSize ≤ maxOffset)
    (hsource : p.source = Source.ofString text) (hp : p.offset ≤ text.utf8ByteSize) :
    (p.nextByte = .ok (((Utf8.bytesOf text)[p.offset + 1]?).getD 0) ↔
      ¬ (p.offset = text.utf8ByteSize ∧ text.utf8ByteSize % 64 = 63)) ∧
    (p.offset = text.utf8ByteSize ∧ text.utf8ByteSize % 64 = 63 →
      p.nextByte =
        .error (.byteBeyondBuffer (text.utf8ByteSize + 1) (text.utf8ByteSize + 1))) := by
  rw [nextByte_ofString h hsource hp]
  split
  · next hfull => exact ⟨iff_of_false nofun (not_not_intro hfull), fun _ => rfl⟩
  · next hroom => exact ⟨iff_of_true rfl hroom, fun hfull => absurd hfull hroom⟩

theorem nextByte_looksAhead_padding : "ab".utf8ByteSize ≤ maxOffset ∧
    ((Source.ofString "ab").start.moveTo 2).source = Source.ofString "ab" ∧
    2 ≤ "ab".utf8ByteSize ∧ ¬ (2 = "ab".utf8ByteSize ∧ "ab".utf8ByteSize % 64 = 63) ∧
    ((Source.ofString "ab").start.moveTo 2).nextByte =
      .ok (((Utf8.bytesOf "ab")[2 + 1]?).getD 0) :=
  ⟨by decide, rfl, by decide, by decide,
    (nextByte_looksAhead (by decide) rfl (by decide)).1.2 (by decide)⟩

/-- A text of 63 bytes has one zero behind it, and looking ahead from its end is a fault. -/
theorem nextByte_fault_at_end :
    ∃ p, (Source.ofString (String.ofList (List.replicate 63 'a'))).start.advance 63 = .ok p ∧
      p.offset = (Source.ofString (String.ofList (List.replicate 63 'a'))).length ∧
      p.nextByte = .error (.byteBeyondBuffer 64 64) ∧ p.nextByte ≠ .ok 0 := by
  have hsize : (String.ofList (List.replicate 63 'a')).utf8ByteSize = 63 := by decide +kernel
  have hmax : (String.ofList (List.replicate 63 'a')).utf8ByteSize ≤ maxOffset := by
    rw [hsize]
    decide
  refine ⟨_, rfl, ?_, ?_⟩
  · rw [Source.length_ofString hmax, hsize]
    rfl
  · rw [nextByte_ofString hmax rfl (Nat.le_of_eq hsize.symm), hsize]
    exact ⟨rfl, nofun⟩

end Read

end Ivy
