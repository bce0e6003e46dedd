import Ivy.Proofs.Utf8
import Ivy.Source.Position.Moves

/-!
# What is left of a text

`Source.content` is the text of a source as a list of bytes and `Position.remaining` the part of it
from a position on.  At a position in the text of a source that is laid out as it should be
(`Position.InText`), the moves that need no search succeed, and this file says where they end in
terms of `remaining`: `advance_eq`, `advanceChar_eq`, `skipWhile_eq`.  `find?_eq` says what a search
finds.
-/

namespace Ivy

namespace Source

/-- The bytes of the text. -/
def content (src : Source) : List UInt8 := src.bytes.data.toList

/-- Whether a source has room for an end mark, zeros behind its text, offsets that can be counted,
and a text that spells characters. -/
structure WellLaid (src : Source) : Prop where
  length_lt : src.length < src.buffer.size
  byteAt_eq_zero : ∀ i, src.length ≤ i → src.byteAt i = 0
  length_le : src.length ≤ maxOffset
  isText : Utf8.IsText src.content

theorem content_ofString {s : String} (h : s.utf8ByteSize ≤ maxOffset) :
    (ofString s).content = Utf8.bytesOf s := by
  rw [content, bytes_ofString h, Utf8.bytesOf]

theorem byteAt_eq_getElem? (src : Source) (i : Nat) :
    src.byteAt i = (src.buffer.data.toList[i]?).getD 0 := by
  unfold byteAt
  split
  · next h =>
    rw [List.getElem?_eq_getElem (by simpa using h), Option.getD_some]
    rfl
  · next h =>
    rw [List.getElem?_eq_none (by simpa using h), Option.getD_none]

theorem content_eq_take (src : Source) :
    src.content = src.buffer.data.toList.take src.length := by
  simp [content, bytes, ByteArray.data_extract]

theorem wellLaid_ofString {s : String} (h : s.utf8ByteSize ≤ maxOffset) :
    (ofString s).WellLaid where
  length_lt := by
    rw [length_ofString h, size_buffer_ofString h]
    exact lt_paddedSize _
  byteAt_eq_zero i hi := by
    rw [length_ofString h] at hi
    rw [byteAt_eq_getElem?, buffer_ofString h, ByteArray.data_append, Array.toList_append,
      List.getElem?_append_right (by simpa using hi)]
    by_cases hlt : i - s.utf8ByteSize < paddedSize s.utf8ByteSize - s.utf8ByteSize <;> simp [hlt]
  length_le := by rwa [length_ofString h]
  isText := content_ofString h ▸ Utf8.isText_bytesOf s

theorem WellLaid.length_content {src : Source} (h : src.WellLaid) :
    src.content.length = src.length := by
  have := h.length_lt
  rw [content_eq_take, List.length_take, Array.length_toList, ByteArray.size_data]
  omega

theorem WellLaid.byteAt_eq {src : Source} (h : src.WellLaid) (i : Nat) :
    src.byteAt i = (src.content[i]?).getD 0 := by
  by_cases hi : i < src.length
  · rw [content_eq_take, List.getElem?_take_of_lt hi, byteAt_eq_getElem?]
  · rw [h.byteAt_eq_zero i (Nat.le_of_not_lt hi), List.getElem?_eq_none, Option.getD_none]
    rw [h.length_content]
    exact Nat.le_of_not_lt hi

theorem WellLaid.extract_eq {src : Source} (h : src.WellLaid) {start stop : Nat}
    (hstop : stop ≤ src.length) : src.buffer.extract start stop =
      ((src.content.drop start).take (stop - start)).toByteArray := by
  have := h.length_lt
  apply ByteArray.ext
  rw [ByteArray.data_extract, List.data_toByteArray, content_eq_take, ← Array.toList_inj,
    Array.toList_extract, List.extract_eq_take_drop, List.drop_take, List.take_take,
    Nat.min_eq_left (by omega)]

theorem WellLaid.slice_eq {src : Source} (h : src.WellLaid) {start stop : Nat}
    (hstart : start ≤ stop) (hstop : stop ≤ src.length) : src.slice start stop =
      .ok (Utf8.textOf ((src.content.drop start).take (stop - start)).toByteArray) := by
  rw [slice, if_neg (by omega), if_neg (by omega), h.extract_eq hstop]

end Source

namespace Position

/-- The bytes of the text from the position on. -/
def remaining (p : Position) : List UInt8 := p.source.content.drop p.offset

/-- Whether a position stands in the text of a well laid source, or at its end. -/
structure InText (p : Position) : Prop where
  wellLaid : p.source.WellLaid
  offset_le : p.offset ≤ p.source.length

section Moves

variable {p : Position} {b : UInt8} {l : List UInt8} {q : UInt8 → Bool}

theorem remaining_moveTo (p : Position) (n : Nat) :
    (p.moveTo (p.offset + n)).remaining = p.remaining.drop n := by
  rw [remaining, remaining, List.drop_drop]
  rfl

theorem InText.length_remaining (h : p.InText) :
    p.remaining.length = p.source.length - p.offset := by
  rw [remaining, List.length_drop, h.wellLaid.length_content]

theorem InText.moveTo (h : p.InText) {n : Nat} (hn : n ≤ p.remaining.length) :
    (p.moveTo (p.offset + n)).InText where
  wellLaid := h.wellLaid
  offset_le := by
    have := h.length_remaining
    have := h.offset_le
    rw [offset_moveTo, source_moveTo]
    omega

theorem InText.byteAt_add (h : p.InText) (i : Nat) :
    p.source.byteAt (p.offset + i) = (p.remaining[i]?).getD 0 := by
  rw [h.wellLaid.byteAt_eq, remaining, List.getElem?_drop]

theorem InText.byteAt_offset (h : p.InText) (hr : p.remaining = b :: l) :
    p.source.byteAt p.offset = b := by
  have := h.byteAt_add 0
  rwa [hr] at this

/-- A position with a byte in front of it is not at the end, and its offset is no largest one. -/
theorem InText.offset_lt (h : p.InText) (hr : p.remaining = b :: l) :
    p.offset < p.source.length ∧ p.source.length ≤ maxOffset := by
  have := h.length_remaining
  rw [hr, List.length_cons] at this
  exact ⟨by omega, h.wellLaid.length_le⟩

theorem InText.offset_eq (h : p.InText) (hr : p.remaining = []) : p.offset = p.source.length := by
  have := h.length_remaining
  have := h.offset_le
  rw [hr, List.length_nil] at *
  omega

theorem InText.isText_append (h : p.InText) :
    Utf8.IsText (p.source.content.take p.offset ++ p.remaining) := by
  rw [remaining, List.take_append_drop]
  exact h.wellLaid.isText

theorem InText.atEnd_eq (h : p.InText) : p.atEnd = p.remaining.isEmpty := by
  cases hr : p.remaining with
  | nil => simp [atEnd, h.offset_eq hr]
  | cons b l => simpa [atEnd] using (h.offset_lt hr).1

/-! ## Moves -/

theorem read_eq (h : p.InText) {i : Nat} (hi : i ≤ p.remaining.length) :
    p.source.read (p.offset + i) = .ok ((p.remaining[i]?).getD 0) := by
  have := h.length_remaining
  have := h.offset_le
  rw [Source.read_eq_ok_iff]
  exact ⟨Nat.lt_of_le_of_lt (by omega) h.wellLaid.length_lt, h.byteAt_add i⟩

theorem byte_eq (h : p.InText) : p.byte = .ok ((p.remaining.head?).getD 0) := by
  rw [List.head?_eq_getElem?]
  exact read_eq h (Nat.zero_le _)

theorem nextByte_eq (h : p.InText) (hr : p.remaining = b :: l) :
    p.nextByte = .ok ((l.head?).getD 0) := by
  have := read_eq h (i := 1) (by simp [hr])
  rwa [hr, List.getElem?_cons_succ, ← List.head?_eq_getElem?] at this

theorem advance_eq (h : p.InText) {n : Nat} (hn : n ≤ p.remaining.length) :
    p.advance n = .ok (p.moveTo (p.offset + n)) := by
  have := h.length_remaining
  have := h.offset_le
  have := h.wellLaid.length_le
  rw [advance, addOffset, if_pos (by omega)]
  rfl

theorem advanceChar_eq (h : p.InText) (hr : p.remaining = b :: l) :
    p.advanceChar = .ok (p.moveTo (p.offset + ((b :: l).take (Utf8.width b)).length)) := by
  have hw : Utf8.width b ≤ (b :: l).length := (hr ▸ h.isText_append).width_le
  have hlen := h.length_remaining
  have hlt := h.offset_lt hr
  rw [hr] at hlen
  simp only [advanceChar, h.atEnd_eq, byte_eq h, hr]
  rw [List.length_take, Nat.min_eq_left hw]
  simp only [List.isEmpty_cons, Bool.false_eq_true, if_false, List.head?_cons, Option.getD_some,
    bind_eq_ok_iff, pure_eq_ok_iff, addOffset_eq_ok_iff]
  exact ⟨b, rfl, p.offset + Utf8.width b, ⟨rfl, by omega⟩, by rw [Nat.min_eq_left (by omega)]⟩

/-! ## Runs and searches -/

theorem endOfRun_eq (h : p.InText) (hq : q 0 = false) {count : Nat}
    (hc : p.remaining.length < count) :
    endOfRun p.source q p.offset count = .ok (p.offset + (p.remaining.takeWhile q).length) := by
  induction count generalizing p with
  | zero => exact absurd hc (Nat.not_lt_zero _)
  | succ count ih =>
    rw [endOfRun]
    cases hr : p.remaining with
    | nil =>
      have hb : p.source.byteAt p.offset = 0 := by
        have := h.byteAt_add 0
        rwa [hr] at this
      rw [hb, hq]
      rfl
    | cons b l =>
      rw [h.byteAt_offset hr, List.takeWhile_cons]
      by_cases hb : q b
      · have hlt := h.offset_lt hr
        have hm := remaining_moveTo p 1
        rw [hr, List.drop_one, List.tail_cons] at hm
        rw [if_pos hb, if_pos hb, if_pos (by omega)]
        have := ih (p := p.moveTo (p.offset + 1)) (h.moveTo (by simp [hr]))
          (by rw [hm]; rw [hr, List.length_cons] at hc; omega)
        rwa [hm, Position.offset_moveTo, Nat.add_right_comm, Nat.add_assoc] at this
      · rw [if_neg hb, if_neg hb]
        rfl

theorem skipWhile_eq (h : p.InText) (hq : q 0 = false) :
    p.skipWhile q = .ok (p.moveTo (p.offset + (p.remaining.takeWhile q).length)) := by
  have := h.length_remaining
  have := h.wellLaid.length_lt
  have := h.offset_le
  rw [skipWhile, endOfRun_eq h hq (by omega)]
  rfl

/-- A search finds nothing, or the first byte that passes. -/
theorem findWithin_eq (h : p.InText) (q : UInt8 → Bool) {count : Nat}
    (hc : p.remaining.length = count) :
    (p.source.findWithin q p.offset count = none ∧ ∀ b ∈ p.remaining, ¬ q b) ∨
      ∃ w b l, p.remaining = w ++ b :: l ∧ (∀ x ∈ w, ¬ q x) ∧ q b ∧
        p.source.findWithin q p.offset count = some (p.offset + w.length) := by
  induction count generalizing p with
  | zero =>
    rw [List.eq_nil_of_length_eq_zero hc]
    exact .inl ⟨rfl, nofun⟩
  | succ count ih =>
    obtain ⟨b, l, hr⟩ := List.exists_cons_of_length_eq_add_one hc
    rw [Source.findWithin, h.byteAt_offset hr]
    by_cases hb : q b
    · exact .inr ⟨[], b, l, hr, nofun, hb, by rw [if_pos hb]; rfl⟩
    · have hm := remaining_moveTo p 1
      rw [hr, List.drop_one, List.tail_cons] at hm
      rw [if_neg hb]
      have := ih (p := p.moveTo (p.offset + 1)) (h.moveTo (by simp [hr]))
        (by rw [hm]; rw [hr] at hc; exact Nat.succ.inj hc)
      rw [hm] at this
      rcases this with ⟨hnone, hall⟩ | ⟨w, c, l', hl, hw, hc', hsome⟩
      · refine .inl ⟨hnone, ?_⟩
        rw [hr]
        exact List.forall_mem_cons.2 ⟨hb, hall⟩
      · refine .inr ⟨b :: w, c, l', by rw [hr, hl]; rfl, List.forall_mem_cons.2 ⟨hb, hw⟩, hc', ?_⟩
        rwa [Position.offset_moveTo, Nat.add_right_comm, Nat.add_assoc] at hsome

theorem find?_eq (h : p.InText) (q : UInt8 → Bool) :
    (p.find? q = .ok none ∧ ∀ b ∈ p.remaining, ¬ q b) ∨
      ∃ w b l, p.remaining = w ++ b :: l ∧ (∀ x ∈ w, ¬ q x) ∧ q b ∧
        p.find? q = .ok (some (p.offset + w.length)) := by
  have hle := h.offset_le
  have hlt := h.wellLaid.length_lt
  rw [find?, if_neg (by omega), if_neg (by omega), Source.find?]
  rcases findWithin_eq h q h.length_remaining with ⟨hnone, hall⟩ | ⟨w, b, l, hr, hw, hb, hsome⟩
  · exact .inl ⟨by rw [hnone], hall⟩
  · exact .inr ⟨w, b, l, hr, hw, hb, by rw [hsome]⟩

end Moves

end Position

/-! ## Positions in a text -/

@[simp] theorem Source.source_start (src : Source) : src.start.source = src := rfl

@[simp] theorem Source.offset_start (src : Source) : src.start.offset = 0 := rfl

section Text

variable {text : String} {p : Position}

theorem inText_of_source (h : text.utf8ByteSize ≤ maxOffset)
    (hsource : p.source = Source.ofString text) (hp : p.offset ≤ text.utf8ByteSize) :
    p.InText where
  wellLaid := hsource ▸ Source.wellLaid_ofString h
  offset_le := by rwa [hsource, Source.length_ofString h]

theorem remaining_of_source (h : text.utf8ByteSize ≤ maxOffset)
    (hsource : p.source = Source.ofString text) :
    p.remaining = (Utf8.bytesOf text).drop p.offset := by
  rw [Position.remaining, hsource, Source.content_ofString h]

theorem inText_start (h : text.utf8ByteSize ≤ maxOffset) : (Source.ofString text).start.InText :=
  inText_of_source h rfl (Nat.zero_le _)

theorem remaining_start (h : text.utf8ByteSize ≤ maxOffset) :
    (Source.ofString text).start.remaining = Utf8.bytesOf text :=
  remaining_of_source h rfl

end Text

end Ivy
