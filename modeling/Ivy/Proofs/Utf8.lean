import Ivy.Text.Utf8

/-!
# Texts as lists of bytes

`encode cs` is the list of bytes that spells the characters `cs`, `bytesOf s` that of a string, and
`IsText w` says that the bytes `w` spell some characters.  A text can be cut before any byte that
may start a character (`IsText.cut`), in particular before every ASCII byte, and the first byte of a
character tells how many bytes the character has (`width_head`, `IsText.cons`).
-/

namespace Ivy

theorem forall_byte {p : UInt8 → Prop} (h : ∀ n : Fin 256, p (UInt8.ofNat n)) (b : UInt8) :
    p b := by
  have := h ⟨b.toNat, b.toNat_lt⟩
  rwa [UInt8.ofNat_toNat] at this

namespace Utf8

/-- The bytes that spell `cs`. -/
def encode (cs : List Char) : List UInt8 := cs.flatMap String.utf8EncodeChar

/-- Whether the bytes `w` spell characters. -/
def IsText (w : List UInt8) : Prop := ∃ cs, encode cs = w

@[simp] theorem encode_nil : encode [] = [] := rfl

@[simp] theorem encode_cons (c : Char) (cs : List Char) :
    encode (c :: cs) = String.utf8EncodeChar c ++ encode cs := rfl

@[simp] theorem encode_append (cs ds : List Char) :
    encode (cs ++ ds) = encode cs ++ encode ds := List.flatMap_append

/-- The bytes of a string. -/
def bytesOf (s : String) : List UInt8 := s.toByteArray.data.toList

theorem bytesOf_eq_encode (s : String) : bytesOf s = encode s.toList := by
  rw [bytesOf, ← String.utf8Encode_toList]
  simp [List.utf8Encode, encode]

theorem isText_bytesOf (s : String) : IsText (bytesOf s) := ⟨s.toList, (bytesOf_eq_encode s).symm⟩

theorem bytesOf_append (s t : String) : bytesOf (s ++ t) = bytesOf s ++ bytesOf t := by
  rw [bytesOf_eq_encode, bytesOf_eq_encode, bytesOf_eq_encode, String.toList_append, encode_append]

theorem length_bytesOf (s : String) : (bytesOf s).length = s.utf8ByteSize := by
  rw [bytesOf, Array.length_toList, ByteArray.size_data, String.size_toByteArray]

theorem textOf_encode (cs : List Char) : textOf (encode cs).toByteArray = String.ofList cs := by
  have h : (encode cs).toByteArray = (String.ofList cs).toByteArray := by
    rw [String.toByteArray_ofList]
    rfl
  rw [h, textOf_toByteArray]

theorem textOf_bytesOf (s : String) : textOf (bytesOf s).toByteArray = s := by
  rw [bytesOf_eq_encode, textOf_encode, String.ofList_toList]

theorem IsText.bytesOf_textOf {w : List UInt8} (h : IsText w) :
    bytesOf (textOf w.toByteArray) = w := by
  obtain ⟨cs, rfl⟩ := h
  rw [textOf_encode, bytesOf_eq_encode, String.toList_ofList]

/-- What spells characters is decoded. -/
theorem IsText.fromUTF8?_eq {w : List UInt8} (h : IsText w) :
    String.fromUTF8? w.toByteArray = some (textOf w.toByteArray) := by
  have hbytes : (bytesOf (textOf w.toByteArray)).toByteArray = (textOf w.toByteArray).toByteArray :=
    ByteArray.ext (by rw [bytesOf, List.data_toByteArray, Array.toArray_toList])
  rw [h.bytesOf_textOf] at hbytes
  rw [hbytes, textOf_toByteArray]
  simp [String.fromUTF8?, String.isValidUTF8, String.fromUTF8]

theorem bytesOf_inj {s t : String} : bytesOf s = bytesOf t ↔ s = t := by
  constructor
  · intro h
    rw [← textOf_bytesOf s, h, textOf_bytesOf]
  · rintro rfl
    rfl

theorem encode_inj {cs ds : List Char} : encode cs = encode ds ↔ cs = ds := by
  constructor
  · intro h
    have hcs := textOf_encode cs
    rw [h, textOf_encode] at hcs
    exact (String.ofList_injective hcs).symm
  · rintro rfl
    rfl

/-! ## Bytes of one character -/

/-- A character is an ASCII byte, or has only bytes that are none. -/
theorem encodeChar_cases (c : Char) :
    (∃ b, b < 0x80 ∧ String.utf8EncodeChar c = [b]) ∨
      ∀ b ∈ String.utf8EncodeChar c, 0x80 ≤ b := by
  fun_cases String.utf8EncodeChar c with
  | case1 v h =>
    refine .inl ⟨_, ?_, rfl⟩
    simp only [UInt8.lt_iff_toNat_lt, UInt8.toNat_ofNat', UInt8.reduceToNat]
    omega
  | case2 | case3 | case4 =>
    right
    simp only [List.mem_cons, List.not_mem_nil, or_false]
    rintro b (rfl | rfl | rfl | rfl) <;>
      (simp only [UInt8.le_iff_toNat_le, UInt8.toNat_ofNat', UInt8.reduceToNat]; omega)

/-- The byte of an ASCII character is in no other character. -/
theorem not_mem_encodeChar {b : UInt8} {c d : Char} (hb : b < 0x80)
    (hd : String.utf8EncodeChar d = [b]) (h : c ≠ d) : b ∉ String.utf8EncodeChar c := by
  intro hmem
  rcases encodeChar_cases c with ⟨b', -, hc⟩ | hall
  · rw [hc, List.mem_singleton] at hmem
    have henc : encode [c] = encode [d] := by rw [encode_cons, encode_cons, hc, hd, hmem]
    exact h (List.cons.inj (encode_inj.1 henc)).1
  · exact absurd (hall b hmem) (UInt8.not_le.2 hb)

theorem width_eq (b : UInt8) : width b =
    if 0xC0 ≤ b.toNat ∧ b.toNat ≤ 0xDF then 2
    else if 0xE0 ≤ b.toNat ∧ b.toNat ≤ 0xEF then 3
    else if 0xF0 ≤ b.toNat ∧ b.toNat ≤ 0xF7 then 4 else 1 := by
  simp only [width, Bool.and_eq_true, decide_eq_true_eq, UInt8.le_iff_toNat_le, UInt8.reduceToNat]

theorem width_of_ascii {b : UInt8} (h : b < 0x80) : width b = 1 := by
  simp only [UInt8.lt_iff_toNat_lt, UInt8.reduceToNat] at h
  rw [width_eq, if_neg (by omega), if_neg (by omega), if_neg (by omega)]

/-- The first byte of a character announces how many bytes the character has. -/
theorem width_head {c : Char} {b : UInt8} {l : List UInt8} (h : String.utf8EncodeChar c = b :: l) :
    width b = l.length + 1 := by
  have hc : c.val.toNat < 0x110000 := by
    have := c.valid
    simp only [UInt32.isValidChar, Nat.isValidChar] at this
    omega
  revert h
  rw [width_eq]
  fun_cases String.utf8EncodeChar c with
  | case1 v h =>
    rintro ⟨⟩
    rw [UInt8.toNat_ofNat', if_neg (by omega), if_neg (by omega), if_neg (by omega)]
    rfl
  | case2 v _ h =>
    rintro ⟨⟩
    rw [UInt8.toNat_ofNat', if_pos (by omega)]
    rfl
  | case3 v _ _ h =>
    rintro ⟨⟩
    rw [UInt8.toNat_ofNat', if_neg (by omega), if_pos (by omega)]
    rfl
  | case4 v _ _ h =>
    rintro ⟨⟩
    rw [UInt8.toNat_ofNat', if_neg (by omega), if_neg (by omega), if_pos (by omega)]
    rfl

/-- Every ASCII byte is a character. -/
theorem exists_encodeChar {b : UInt8} (h : b < 0x80) : ∃ c, String.utf8EncodeChar c = [b] := by
  have hn : ∀ n : Fin 128, String.utf8EncodeChar (Char.ofNat n) = [UInt8.ofNat n] := by
    decide +kernel
  refine ⟨Char.ofNat b.toNat, (hn ⟨b.toNat, by simpa [UInt8.lt_iff_toNat_lt] using h⟩).trans ?_⟩
  rw [UInt8.ofNat_toNat]

theorem isUTF8FirstByte_of_ascii {b : UInt8} (h : b < 0x80) : b.IsUTF8FirstByte := by
  obtain ⟨c, hc⟩ := exists_encodeChar h
  have := UInt8.isUTF8FirstByte_getElem_zero_utf8EncodeChar (c := c)
  simpa only [hc, List.getElem_cons_zero] using this

theorem width_of_not_isUTF8FirstByte {b : UInt8} (h : ¬ b.IsUTF8FirstByte) : width b = 1 := by
  have hall : ∀ b : UInt8, ¬ b.IsUTF8FirstByte → width b = 1 := forall_byte (by decide +kernel)
  exact hall b h

/-- Apart from its first byte, a character has no byte that may start one. -/
theorem eq_nil_of_encodeChar {c : Char} {a l : List UInt8} {b : UInt8}
    (h : String.utf8EncodeChar c = a ++ b :: l) (hb : b.IsUTF8FirstByte) : a = [] := by
  have hlt : a.length < (String.utf8EncodeChar c).length := by simp [h]
  have hget : (String.utf8EncodeChar c)[a.length] = b := by simp [h]
  rw [← hget, UInt8.isUTF8FirstByte_getElem_utf8EncodeChar] at hb
  exact List.eq_nil_of_length_eq_zero hb

/-! ## Cutting a text -/

theorem isText_nil : IsText [] := ⟨[], rfl⟩

theorem isText_encodeChar (c : Char) : IsText (String.utf8EncodeChar c) :=
  ⟨[c], List.append_nil _⟩

theorem IsText.append {v w : List UInt8} (hv : IsText v) (hw : IsText w) : IsText (v ++ w) := by
  obtain ⟨cs, rfl⟩ := hv
  obtain ⟨ds, rfl⟩ := hw
  exact ⟨cs ++ ds, encode_append cs ds⟩

/-- A text that is not empty starts with a character. -/
theorem IsText.cons {b : UInt8} {l : List UInt8} (h : IsText (b :: l)) :
    ∃ c rest, b :: l = String.utf8EncodeChar c ++ rest ∧ IsText rest ∧
      width b = (String.utf8EncodeChar c).length := by
  obtain ⟨cs, hcs⟩ := h
  cases cs with
  | nil => cases hcs
  | cons c cs =>
    refine ⟨c, encode cs, hcs.symm, ⟨cs, rfl⟩, ?_⟩
    obtain ⟨b', l', hc⟩ := List.exists_cons_of_ne_nil (String.utf8EncodeChar_ne_nil (c := c))
    rw [encode_cons, hc] at hcs
    cases hcs
    rw [width_head hc, hc, List.length_cons]

/-- A text starts with the first byte of a character. -/
theorem IsText.isUTF8FirstByte {b : UInt8} {l : List UInt8} (h : IsText (b :: l)) :
    b.IsUTF8FirstByte := by
  obtain ⟨c, rest, hl, -, -⟩ := h.cons
  have hfirst := UInt8.isUTF8FirstByte_getElem_zero_utf8EncodeChar (c := c)
  obtain ⟨b', l', hc⟩ := List.exists_cons_of_ne_nil (String.utf8EncodeChar_ne_nil (c := c))
  rw [hc] at hl
  cases hl
  simpa only [hc, List.getElem_cons_zero] using hfirst

/-- Behind an ASCII byte a text goes on with a character. -/
theorem IsText.tail {b : UInt8} {l : List UInt8} (h : IsText (b :: l)) (hb : b < 0x80) :
    IsText l := by
  obtain ⟨c, rest, hl, hrest, hw⟩ := h.cons
  rw [width_of_ascii hb] at hw
  obtain ⟨b', hc⟩ := List.length_eq_one_iff.1 hw.symm
  rw [hc] at hl
  cases hl
  exact hrest

/-- A text falls into two texts before every byte that may start a character. -/
theorem IsText.cut {a l : List UInt8} {b : UInt8} (h : IsText (a ++ b :: l))
    (hb : b.IsUTF8FirstByte) : IsText a ∧ IsText (b :: l) := by
  obtain ⟨cs, hcs⟩ := h
  induction cs generalizing a with
  | nil => simp at hcs
  | cons c cs ih =>
    rw [encode_cons, List.append_eq_append_iff] at hcs
    rcases hcs with ⟨a', rfl, ha'⟩ | ⟨l', hc, hl'⟩
    · obtain ⟨ha, hl⟩ := ih ha'
      exact ⟨(isText_encodeChar c).append ha, hl⟩
    · cases l' with
      | nil =>
        rw [List.append_nil] at hc
        exact ⟨hc ▸ isText_encodeChar c, ⟨cs, hl'.symm⟩⟩
      | cons b' l' =>
        cases hl'
        cases eq_nil_of_encodeChar hc hb
        exact ⟨isText_nil, ⟨c :: cs, by rw [encode_cons, hc]; rfl⟩⟩

/-- What is left of a text behind a text is a text. -/
theorem IsText.of_append {v w : List UInt8} (h : IsText (v ++ w)) (hv : IsText v) : IsText w := by
  obtain ⟨cs, rfl⟩ := hv
  induction cs with
  | nil => exact h
  | cons c cs ih =>
    apply ih
    obtain ⟨b, l, hc⟩ := List.exists_cons_of_ne_nil (String.utf8EncodeChar_ne_nil (c := c))
    rw [encode_cons, List.append_assoc, hc] at h
    obtain ⟨d, rest, hd, hrest, hw⟩ := IsText.cons h
    have hlen : (b :: l).length = (String.utf8EncodeChar d).length := by
      rw [List.length_cons, ← width_head hc, hw]
    rwa [(List.append_inj hd hlen).2]

/-- A string falls into two strings wherever its bytes fall into two texts. -/
theorem exists_eq_append {s : String} {v w : List UInt8} (h : bytesOf s = v ++ w)
    (hv : IsText v) : ∃ front back, s = front ++ back ∧ bytesOf front = v ∧ bytesOf back = w := by
  have hw : IsText w := (h ▸ isText_bytesOf s).of_append hv
  refine ⟨textOf v.toByteArray, textOf w.toByteArray, ?_, hv.bytesOf_textOf, hw.bytesOf_textOf⟩
  rw [← bytesOf_inj, bytesOf_append, hv.bytesOf_textOf, hw.bytesOf_textOf, h]

/-- A text does not end before the byte in front of it says. -/
theorem IsText.width_le {a l : List UInt8} {b : UInt8} (h : IsText (a ++ b :: l)) :
    width b ≤ (b :: l).length := by
  by_cases hb : b.IsUTF8FirstByte
  · obtain ⟨c, rest, hl, -, hw⟩ := (h.cut hb).2.cons
    rw [hw, hl, List.length_append]
    exact Nat.le_add_right _ _
  · rw [width_of_not_isUTF8FirstByte hb]
    exact Nat.succ_pos _

theorem isText_cons {b : UInt8} {w : List UInt8} (hb : b < 0x80) (hw : IsText w) :
    IsText (b :: w) := by
  obtain ⟨c, hc⟩ := exists_encodeChar hb
  exact (hc ▸ isText_encodeChar c : IsText [b]).append hw

theorem isText_of_ascii {w : List UInt8} (h : ∀ b ∈ w, b < 0x80) : IsText w := by
  induction w with
  | nil => exact isText_nil
  | cons b w ih =>
    obtain ⟨hb, hw⟩ := List.forall_mem_cons.1 h
    exact isText_cons hb (ih hw)

end Utf8

/-! ## Positions in a string -/

section Positions

variable {text : String}

theorem bytesOf_sliceFrom (q : text.Pos) :
    Utf8.bytesOf (text.sliceFrom q).copy = (Utf8.bytesOf text).drop q.offset.byteIdx := by
  have hsplits := q.splits
  have hbytes := congrArg Utf8.bytesOf hsplits.eq_append
  have hlen : q.offset.byteIdx = (Utf8.bytesOf (text.sliceTo q).copy).length := by
    rw [Utf8.length_bytesOf, hsplits.offset_eq_rawEndPos]
    rfl
  rw [Utf8.bytesOf_append] at hbytes
  rw [hlen, hbytes, List.drop_left]

theorem utf8ByteSize_sliceFrom_le (q : text.Pos) :
    (text.sliceFrom q).copy.utf8ByteSize ≤ text.utf8ByteSize := by
  rw [← Utf8.length_bytesOf, ← Utf8.length_bytesOf, bytesOf_sliceFrom, List.length_drop]
  exact Nat.sub_le _ _

/-- The positions in a text are the offsets from which on the bytes spell characters. -/
theorem isValid_iff_isText {n : Nat} : String.Pos.Raw.IsValid text ⟨n⟩ ↔
    n ≤ text.utf8ByteSize ∧ Utf8.IsText ((Utf8.bytesOf text).drop n) := by
  constructor
  · intro h
    refine ⟨h.le_utf8ByteSize, ?_⟩
    have hslice := bytesOf_sliceFrom (⟨⟨n⟩, h⟩ : text.Pos)
    exact hslice ▸ Utf8.isText_bytesOf _
  · rintro ⟨hn, h⟩
    rw [String.Pos.Raw.isValid_iff_isUTF8FirstByte]
    rcases Nat.eq_or_lt_of_le hn with rfl | hlt
    · exact .inl rfl
    · have hlt' : n < (Utf8.bytesOf text).length := by rwa [Utf8.length_bytesOf]
      rw [List.drop_eq_getElem_cons hlt'] at h
      exact .inr ⟨hlt, h.isUTF8FirstByte⟩

theorem exists_pos {n : Nat} (hn : n ≤ text.utf8ByteSize)
    (h : Utf8.IsText ((Utf8.bytesOf text).drop n)) : ∃ q : text.Pos, q.offset.byteIdx = n :=
  ⟨⟨⟨n⟩, isValid_iff_isText.2 ⟨hn, h⟩⟩, rfl⟩

end Positions

end Ivy
