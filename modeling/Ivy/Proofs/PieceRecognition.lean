import Ivy.Proofs.Leads
import Ivy.Proofs.Pieces
import Ivy.Proofs.Remaining

/-!
# Recognition reads the first piece

At a position in a text `recognise` does not fail, and what it finds is the first piece of the bytes
that are left (`recognise_eq`).  The line number grows by the number of line feeds in the piece,
which has to leave it in its 32 bits.
-/

namespace Ivy

namespace Position

variable {p : Position}

theorem moveTo_length (h : p.InText) :
    p.moveTo p.source.length = p.moveTo (p.offset + p.remaining.length) := by
  rw [h.length_remaining, Nat.add_sub_cancel' h.offset_le]

theorem moveTo_append (v w : List UInt8) :
    (p.moveTo (p.offset + v.length)).moveTo ((p.moveTo (p.offset + v.length)).offset + w.length) =
      p.moveTo (p.offset + (v ++ w).length) := by
  rw [offset_moveTo, List.length_append, ← Nat.add_assoc]
  rfl

theorem moveTo_cons (b : UInt8) (w : List UInt8) :
    (p.moveTo (p.offset + 1)).moveTo ((p.moveTo (p.offset + 1)).offset + w.length) =
      p.moveTo (p.offset + (b :: w).length) := moveTo_append [b] w

theorem skipToLineEnd_eq (h : p.InText) :
    p.skipToLineEnd = .ok (p.moveTo (p.offset + (restOfLine p.remaining).length)) := by
  rw [skipToLineEnd]
  rcases find?_eq h (· == lineFeed) with ⟨hnone, hall⟩ | ⟨w, b, l, hr, hw, hb, hsome⟩
  · have hmem : lineFeed ∉ p.remaining := fun hmem => hall _ hmem (beq_self_eq_true _)
    rw [hnone, restOfLine_of_not_mem hmem, ← moveTo_length h]
    rfl
  · have hw' : lineFeed ∉ w := fun hmem => hw _ hmem (beq_self_eq_true _)
    rw [hsome, hr, eq_of_beq hb, restOfLine_append hw']
    rcases List.eq_nil_or_concat w with rfl | ⟨w, c, rfl⟩
    · simp [bind, Except.bind, pure, Except.pure]
    · rw [List.concat_eq_append] at *
      have hc : p.source.byteAt (p.offset + (w ++ [c]).length - 1) = c := by
        rw [List.length_append, List.length_singleton, ← Nat.add_assoc, Nat.add_sub_cancel,
          h.byteAt_add, hr]
        simp
      have hlt : p.offset < p.offset + (w ++ [c]).length := by simp
      simp only [bind, Except.bind, pure, Except.pure, hc, hlt, decide_true, Bool.true_and,
        beq_iff_eq, List.getLast?_concat, Option.some.injEq, List.dropLast_concat]
      by_cases hcr : c = carriageReturn
      · rw [if_pos hcr, if_pos hcr, List.length_append, List.length_singleton, ← Nat.add_assoc,
          Nat.add_sub_cancel]
      · rw [if_neg hcr, if_neg hcr]

/-- Either the search for what interrupts a string finds nothing, or the first such byte. -/
theorem skipToStringMark_eq (h : p.InText) :
    (p.skipToStringMark = .ok (p.moveTo (p.offset + p.remaining.length), none) ∧
        ∀ b ∈ p.remaining, ¬ isStringMark b) ∨
      ∃ w b l, p.remaining = w ++ b :: l ∧ (∀ x ∈ w, ¬ isStringMark x) ∧ isStringMark b ∧
        p.skipToStringMark = .ok (p.moveTo (p.offset + w.length), some b) := by
  rw [skipToStringMark]
  rcases find?_eq h isStringMark with ⟨hnone, hall⟩ | ⟨w, b, l, hr, hw, hb, hsome⟩
  · refine .inl ⟨?_, hall⟩
    rw [hnone, ← moveTo_length h]
    rfl
  · refine .inr ⟨w, b, l, hr, hw, hb, ?_⟩
    have hbyte : p.source.byteAt (p.offset + w.length) = b := by
      rw [h.byteAt_add, hr]
      simp
    rw [hsome, ← hbyte]
    rfl

end Position

/-- The piece `s` as a stretch of source that starts at `p`. -/
def Piece.stretch (s : Piece) (p : Position) (line : Nat) : Stretch :=
  ⟨s.form, p.moveTo (p.offset + s.bytes.length), line + s.bytes.count lineFeed⟩

section Recognise

variable {p : Position} {line : Nat}

theorem nextLine_eq (h : line + 1 ≤ maxOffset) : nextLine line = .ok (line + 1) :=
  addOffset_eq_ok_iff.2 ⟨rfl, h⟩

theorem lineAfter_eq {b : UInt8} (h : line + [b].count lineFeed ≤ maxOffset) :
    lineAfter b line = .ok (line + [b].count lineFeed) := by
  rw [List.count_singleton] at *
  unfold lineAfter
  split
  · next hb =>
    rw [if_pos hb] at *
    exact nextLine_eq h
  · rfl

/-! ## Strings -/

theorem count_of_ne {w : List UInt8} (h : ∀ b ∈ w, b ≠ lineFeed) : w.count lineFeed = 0 :=
  List.count_eq_zero_of_not_mem fun hmem => h _ hmem rfl

/-- A character other than a line feed has no byte that is one. -/
theorem count_encodeChar {c : Char} {b : UInt8} {l : List UInt8}
    (h : String.utf8EncodeChar c = b :: l) :
    (String.utf8EncodeChar c).count lineFeed = [b].count lineFeed := by
  rw [h]
  rcases Utf8.encodeChar_cases c with ⟨b', -, hb'⟩ | hall
  · rw [h] at hb'
    cases hb'
    rfl
  · rw [h] at hall
    have hne : ∀ x ∈ b :: l, x ≠ lineFeed := fun x hx => ne_of_not_ascii (hall x hx) (by decide)
    rw [count_of_ne hne, List.count_singleton, if_neg]
    simpa using hne b List.mem_cons_self

/-- Behind a backslash the string goes on after the next character, if there is one. -/
theorem skipEscaped_eq (h : p.InText) (ht : Utf8.IsText p.remaining)
    (hl : line + p.remaining.count lineFeed ≤ maxOffset) :
    (p.remaining = [] ∧ skipEscaped p line = .ok (p, line)) ∨
      ∃ c rest, p.remaining = String.utf8EncodeChar c ++ rest ∧ Utf8.IsText rest ∧
        skipEscaped p line = .ok (p.moveTo (p.offset + (String.utf8EncodeChar c).length),
          line + (String.utf8EncodeChar c).count lineFeed) := by
  cases hr : p.remaining with
  | nil =>
    refine .inl ⟨rfl, ?_⟩
    rw [skipEscaped, h.atEnd_eq, hr]
    rfl
  | cons b l =>
    rw [hr] at ht hl
    obtain ⟨c, rest, hc, hrest, hw⟩ := ht.cons
    refine .inr ⟨c, rest, hc, hrest, ?_⟩
    obtain ⟨b', w, hb'⟩ := List.exists_cons_of_ne_nil (String.utf8EncodeChar_ne_nil (c := c))
    have hb : b' = b := by
      rw [hb', List.cons_append, List.cons.injEq] at hc
      exact hc.1.symm
    rw [hb] at hb'
    have htake : (b :: l).take (Utf8.width b) = String.utf8EncodeChar c := by
      rw [hw, hc, List.take_left]
    have hline : line + [b].count lineFeed ≤ maxOffset := by
      rw [hc, List.count_append, count_encodeChar hb'] at hl
      omega
    rw [skipEscaped, h.atEnd_eq, Position.byte_eq h, Position.advanceChar_eq h hr, htake,
      count_encodeChar hb', hr]
    simp only [List.isEmpty_cons, Bool.false_eq_true, if_false, List.head?_cons, Option.getD_some]
    rw [bind_eq_ok_iff]
    refine ⟨b, rfl, ?_⟩
    rw [bind_eq_ok_iff]
    exact ⟨_, lineAfter_eq hline, rfl⟩

/-- What a string is does not depend on the plain bytes or escapes that have been read of it. -/
theorem stretch_stringPiece_append {w l : List UInt8}
    (h : restOfString? (w ++ l) = (restOfString? l).map (w ++ ·)) :
    (stringPiece l).stretch (p.moveTo (p.offset + w.length)) (line + w.count lineFeed) =
      (stringPiece (w ++ l)).stretch p line := by
  have happend : stringPiece (w ++ l) = ⟨(stringPiece l).form, w ++ (stringPiece l).bytes⟩ := by
    unfold stringPiece
    rw [h]
    cases restOfString? l <;> rfl
  rw [happend, Piece.stretch, Piece.stretch, List.length_append, List.count_append,
    ← Nat.add_assoc, ← Nat.add_assoc]
  rfl

theorem isStringMark_iff {b : UInt8} :
    isStringMark b ↔ b = quotationMark ∨ b = backslash ∨ b = lineFeed := by
  simp [isStringMark, or_assoc]

/-- Behind a line feed or a backslash, a string goes on where the bytes `w` are read. -/
theorem skipMark_eq {mark : UInt8} {l : List UInt8} (h : p.InText)
    (ht : Utf8.IsText p.remaining) (hr : p.remaining = mark :: l) (hm : isStringMark mark)
    (hq : mark ≠ quotationMark) (hl : line + p.remaining.count lineFeed ≤ maxOffset) :
    ∃ w rest, p.remaining = w ++ rest ∧ Utf8.IsText rest ∧
      restOfString? (w ++ rest) = (restOfString? rest).map (w ++ ·) ∧
      skipMark mark p line = .ok (p.moveTo (p.offset + w.length), line + w.count lineFeed) := by
  have hadv : p.advance 1 = .ok (p.moveTo (p.offset + 1)) := Position.advance_eq h (by simp [hr])
  have hmove : (p.moveTo (p.offset + 1)).remaining = l := by
    rw [Position.remaining_moveTo, hr, List.drop_one, List.tail_cons]
  have hin : (p.moveTo (p.offset + 1)).InText := h.moveTo (by simp [hr])
  rw [hr] at ht hl
  rw [skipMark, hadv]
  rcases isStringMark_iff.1 hm with hq' | rfl | rfl
  · exact absurd hq' hq
  · have htl : Utf8.IsText (p.moveTo (p.offset + 1)).remaining := by
      rw [hmove]
      exact ht.tail (by decide)
    have hll : line + (p.moveTo (p.offset + 1)).remaining.count lineFeed ≤ maxOffset := by
      rwa [hmove]
    rcases skipEscaped_eq hin htl hll with ⟨hnil, hskip⟩ | ⟨c, rest, hc, hrest, hskip⟩
    · rw [hmove] at hnil
      refine ⟨[backslash], [], by rw [hr, hnil]; rfl, Utf8.isText_nil, rfl, ?_⟩
      exact hskip
    · rw [hmove] at hc
      refine ⟨backslash :: String.utf8EncodeChar c, rest, by rw [hr, hc]; rfl, hrest,
        restOfString?_escape c rest, ?_⟩
      apply hskip.trans
      rw [List.count_cons_of_ne (by decide), Position.moveTo_cons backslash]
  · refine ⟨[lineFeed], l, hr, ht.tail (by decide), ?_, ?_⟩
    · have hplain : lineFeed ≠ quotationMark ∧ lineFeed ≠ backslash := by decide
      exact restOfString?_append (List.forall_mem_singleton.2 hplain) l
    · rw [List.count_cons_self] at hl
      have hline : lineAfter lineFeed line = .ok (line + 1) :=
        lineAfter_eq (by simpa using by omega)
      rw [bind_eq_ok_iff]
      refine ⟨_, rfl, ?_⟩
      rw [if_neg (by decide), bind_eq_ok_iff]
      exact ⟨_, hline, rfl⟩

theorem plain_of_not_isStringMark {w : List UInt8} (h : ∀ b ∈ w, ¬ isStringMark b) :
    (∀ b ∈ w, b ≠ quotationMark ∧ b ≠ backslash) ∧ w.count lineFeed = 0 := by
  simp only [isStringMark_iff, not_or] at h
  exact ⟨fun b hb => ⟨(h b hb).1, (h b hb).2.1⟩, count_of_ne fun b hb => (h b hb).2.2⟩

/-- Up to the next byte that interrupts a string there is nothing but plain bytes. -/
theorem mark_of_skipToStringMark {q : Position} {mark : UInt8} (h : p.InText)
    (hm : p.skipToStringMark = .ok (q, some mark)) :
    ∃ w l, p.remaining = w ++ mark :: l ∧ (∀ x ∈ w, ¬ isStringMark x) ∧ isStringMark mark ∧
      q = p.moveTo (p.offset + w.length) ∧ q.remaining = mark :: l ∧ q.InText := by
  rcases Position.skipToStringMark_eq h with ⟨heq, -⟩ | ⟨w, b, l, hr, hw, hb, heq⟩
  · rw [hm] at heq
    cases heq
  · rw [hm] at heq
    cases heq
    refine ⟨w, l, hr, hw, hb, rfl, ?_, h.moveTo (by simp [hr])⟩
    rw [Position.remaining_moveTo, hr, List.drop_left]

theorem isText_and_count_of_marked {w l : List UInt8} {mark : UInt8}
    (ht : Utf8.IsText p.remaining) (hl : line + p.remaining.count lineFeed ≤ maxOffset)
    (hr : p.remaining = w ++ mark :: l) (hw : ∀ x ∈ w, ¬ isStringMark x)
    (hm : isStringMark mark) :
    Utf8.IsText (mark :: l) ∧ line + (mark :: l).count lineFeed ≤ maxOffset := by
  have hascii : mark < 0x80 := by
    rcases isStringMark_iff.1 hm with rfl | rfl | rfl <;> decide
  rw [hr] at ht hl
  rw [List.count_append, (plain_of_not_isStringMark hw).2, Nat.zero_add] at hl
  exact ⟨(ht.cut (Utf8.isUTF8FirstByte_of_ascii hascii)).2, hl⟩

theorem recogniseString_eq (h : p.InText) (ht : Utf8.IsText p.remaining)
    (hl : line + p.remaining.count lineFeed ≤ maxOffset) :
    recogniseString p line = .ok ((stringPiece p.remaining).stretch p line) := by
  fun_induction recogniseString p line with
  | case1 p line fault hm =>
    rcases Position.skipToStringMark_eq h with ⟨heq, -⟩ | ⟨w, b, l, -, -, -, heq⟩ <;>
      (rw [hm] at heq; cases heq)
  | case2 p line q hm =>
    rcases Position.skipToStringMark_eq h with ⟨heq, hall⟩ | ⟨w, b, l, -, -, -, heq⟩
    · rw [hm] at heq
      cases heq
      obtain ⟨hplain, hcount⟩ := plain_of_not_isStringMark hall
      rw [stringPiece, restOfString?_eq_none hplain, Piece.stretch, hcount]
      rfl
    · rw [hm] at heq
      cases heq
  | case3 p line q mark hm hq =>
    obtain ⟨w, l, hr, hw, -, rfl, hqr, hqin⟩ := mark_of_skipToStringMark h hm
    obtain ⟨hplain, hcount⟩ := plain_of_not_isStringMark hw
    rw [eq_of_beq hq] at hr hqr
    rw [Position.advance_eq hqin (by simp [hqr]), stringPiece, hr, restOfString?_append hplain,
      restOfString?_quotationMark, Option.map_some, Piece.stretch, List.count_append, hcount,
      List.length_append, ← Nat.add_assoc]
    rfl
  | case4 p line q mark hm hq fault hs =>
    obtain ⟨w, l, hr, hw, hmark, rfl, hqr, hqin⟩ := mark_of_skipToStringMark h hm
    obtain ⟨hqt, hql⟩ := isText_and_count_of_marked ht hl hr hw hmark
    rw [← hqr] at hqt hql
    obtain ⟨w', rest, -, -, -, hskip⟩ := skipMark_eq hqin hqt hqr hmark (by simpa using hq) hql
    rw [hs] at hskip
    cases hskip
  | case5 p line q mark hm hq r line' hs ih =>
    obtain ⟨w, l, hr, hw, hmark, rfl, hqr, hqin⟩ := mark_of_skipToStringMark h hm
    obtain ⟨hplain, hcount⟩ := plain_of_not_isStringMark hw
    obtain ⟨hqt, hql⟩ := isText_and_count_of_marked ht hl hr hw hmark
    rw [← hqr] at hqt hql
    obtain ⟨w', rest, hrest, htrest, hstring, hskip⟩ :=
      skipMark_eq hqin hqt hqr hmark (by simpa using hq) hql
    rw [hs] at hskip
    cases hskip
    have hrr : ((p.moveTo (p.offset + w.length)).moveTo
        ((p.moveTo (p.offset + w.length)).offset + w'.length)).remaining = rest := by
      rw [Position.remaining_moveTo, hrest, List.drop_left]
    rw [ih (hqin.moveTo (by simp [hrest])) (hrr ▸ htrest) ?_, hrr,
      stretch_stringPiece_append hstring]
    · rw [hqr] at hrest
      rw [← hrest, hr, ← stretch_stringPiece_append (restOfString?_append hplain (mark :: l)),
        hcount]
      rfl
    · rw [hrr]
      rw [hrest, List.count_append] at hql
      omega

/-! ## Other pieces -/

variable {b : UInt8} {l : List UInt8}

theorem count_singleton_of_ne (hb : b ≠ lineFeed) : [b].count lineFeed = 0 :=
  count_of_ne (by simpa using hb)

/-- A zero behind the text is no byte of it. -/
theorem getD_head?_beq_iff {x : UInt8} (hx : x ≠ 0) :
    ((l.head?).getD 0 == x) = true ↔ l.head? = some x := by
  cases l with
  | nil => simpa using hx.symm
  | cons c l => simp

/-- The position behind the first byte of what is left. -/
theorem advance_one_eq (h : p.InText) (hr : p.remaining = b :: l) :
    p.advance 1 = .ok (p.moveTo (p.offset + 1)) ∧ (p.moveTo (p.offset + 1)).InText ∧
      (p.moveTo (p.offset + 1)).remaining = l := by
  refine ⟨Position.advance_eq h (by simp [hr]), h.moveTo (by simp [hr]), ?_⟩
  rw [Position.remaining_moveTo, hr, List.drop_one, List.tail_cons]

/-- A run that starts with `b` goes on with the bytes of the class behind it. -/
theorem skipWhile_cons_eq {q : UInt8 → Bool} (h : p.InText) (hr : p.remaining = b :: l)
    (hq : q 0 = false) (hb : q b) :
    p.skipWhile q = .ok (p.moveTo (p.offset + (b :: l.takeWhile q).length)) := by
  rw [Position.skipWhile_eq h hq, hr, List.takeWhile_cons, if_pos hb]

theorem recogniseOther_eq (h : p.InText) (hr : p.remaining = b :: l) (hb : b ≠ lineFeed) :
    recogniseOther p line = .ok (Piece.stretch
      ⟨.defect .unexpectedCharacter, (b :: l).take (Utf8.width b)⟩ p line) := by
  have hcount : ((b :: l).take (Utf8.width b)).count lineFeed = 0 := by
    have hsingle : [b].count lineFeed = 0 := count_singleton_of_ne hb
    by_cases hfirst : b.IsUTF8FirstByte
    · obtain ⟨c, rest, hc, -, hw⟩ := ((hr ▸ h.isText_append).cut hfirst).2.cons
      obtain ⟨b', w, hb'⟩ := List.exists_cons_of_ne_nil (String.utf8EncodeChar_ne_nil (c := c))
      have hbb : b' = b := by
        rw [hb', List.cons_append, List.cons.injEq] at hc
        exact hc.1.symm
      rw [hw, hc, List.take_left, count_encodeChar hb', hbb, hsingle]
    · rw [Utf8.width_of_not_isUTF8FirstByte hfirst]
      exact hsingle
  rw [recogniseOther, Position.advanceChar_eq h hr, Piece.stretch, hcount]
  rfl

theorem recogniseCarriageReturn_eq (h : p.InText) (hr : p.remaining = b :: l)
    (hb : Lead.of b = .carriageReturn) (hl : line + p.remaining.count lineFeed ≤ maxOffset) :
    recogniseCarriageReturn p line = .ok ((pieceFrom b l).stretch p line) := by
  have hne : b ≠ lineFeed := Lead.ne_lineFeed (by simp [hb])
  rw [recogniseCarriageReturn, Position.nextByte_eq h hr, pieceFrom, hb]
  by_cases hlf : l.head? = some lineFeed
  · obtain ⟨l', rfl⟩ := List.head?_eq_some_iff.1 hlf
    have hnext : nextLine line = .ok (line + 1) := by
      rw [hr, List.count_cons_of_ne hne, List.count_cons_self] at hl
      exact nextLine_eq (by omega)
    simp only [List.head?_cons, if_true, Piece.stretch]
    rw [Position.advance_eq h (by simp [hr]), hnext, List.count_cons_of_ne hne]
    rfl
  · simp only [if_neg hlf, Piece.stretch]
    rw [(advance_one_eq h hr).1, count_singleton_of_ne hne]
    rw [bind_eq_ok_iff]
    exact ⟨_, rfl, if_neg (mt (getD_head?_beq_iff (by decide)).1 hlf)⟩

theorem recognisePair_eq {second : UInt8} {joined alone : Kind} (h : p.InText)
    (hr : p.remaining = b :: l) (hb : Lead.of b = .pair second joined alone) :
    recognisePair second joined alone p line = .ok ((pieceFrom b l).stretch p line) := by
  have hne : b ≠ lineFeed := Lead.ne_lineFeed (by simp [hb])
  obtain ⟨hsecond, hzero⟩ := Lead.second_ne hb
  obtain ⟨hadv, hin, hrest⟩ := advance_one_eq h hr
  rw [recognisePair, hadv, pieceFrom, hb, bind_eq_ok_iff]
  refine ⟨_, rfl, ?_⟩
  rw [Position.byte_eq hin, hrest, bind_eq_ok_iff]
  refine ⟨_, rfl, ?_⟩
  by_cases hs : l.head? = some second
  · obtain ⟨l', rfl⟩ := List.head?_eq_some_iff.1 hs
    rw [if_pos ((getD_head?_beq_iff hzero).2 hs), (advance_one_eq hin hrest).1]
    simp only [if_pos hs, Piece.stretch]
    rw [List.count_cons_of_ne hne, count_singleton_of_ne hsecond]
    rfl
  · rw [if_neg (mt (getD_head?_beq_iff hzero).1 hs)]
    simp only [if_neg hs, Piece.stretch]
    rw [count_singleton_of_ne hne]
    rfl

theorem recogniseSlash_eq (h : p.InText) (hr : p.remaining = b :: l) (hb : Lead.of b = .slash) :
    recogniseSlash p line = .ok ((pieceFrom b l).stretch p line) := by
  have hne : b ≠ lineFeed := Lead.ne_lineFeed (by simp [hb])
  obtain ⟨hadv, hin, hrest⟩ := advance_one_eq h hr
  rw [recogniseSlash, hadv, pieceFrom, hb, bind_eq_ok_iff]
  refine ⟨_, rfl, ?_⟩
  rw [Position.byte_eq hin, hrest, bind_eq_ok_iff]
  refine ⟨_, rfl, ?_⟩
  by_cases hs : l.head? = some slash
  · obtain ⟨l', rfl⟩ := List.head?_eq_some_iff.1 hs
    obtain ⟨hadv', hin', hrest'⟩ := advance_one_eq hin hrest
    have hcount : (restOfLine l').count lineFeed = 0 :=
      List.count_eq_zero_of_not_mem (not_mem_restOfLine l')
    rw [if_pos ((getD_head?_beq_iff (by decide)).2 hs), hadv']
    simp only [if_pos hs, Piece.stretch, List.tail_cons]
    rw [bind_eq_ok_iff]
    refine ⟨_, rfl, ?_⟩
    rw [Position.skipToLineEnd_eq hin', hrest', List.count_cons_of_ne hne,
      List.count_cons_of_ne (by decide), hcount, Position.moveTo_cons slash,
      Position.moveTo_cons b]
    rfl
  · rw [if_neg (mt (getD_head?_beq_iff (by decide)).1 hs)]
    simp only [if_neg hs, Piece.stretch]
    rw [count_singleton_of_ne hne]
    rfl

theorem recogniseNumber_eq (h : p.InText) (hr : p.remaining = b :: l) (hb : Lead.of b = .digit) :
    recogniseNumber p line = .ok ((pieceFrom b l).stretch p line) := by
  have hne : b ≠ lineFeed := Lead.ne_lineFeed (by simp [hb])
  have hdigit : isDigit b := Lead.isDigit_of_eq hb
  have hcount : (b :: restOfNumber l).count lineFeed = 0 :=
    count_of_ne (List.forall_mem_cons.2 ⟨hne, mem_restOfNumber_ne l⟩)
  have hin := h.moveTo (n := (b :: l.takeWhile isDigit).length) (by
    rw [hr]
    exact Nat.succ_le_succ (List.takeWhile_prefix _).length_le)
  have hrest : (p.moveTo (p.offset + (b :: l.takeWhile isDigit).length)).remaining =
      l.dropWhile isDigit := by
    rw [Position.remaining_moveTo, hr, List.length_cons, List.drop_succ_cons]
    exact drop_length_takeWhile isDigit l
  have hpiece : pieceFrom b l = ⟨.token .literalNumber, b :: restOfNumber l⟩ := by
    simp only [pieceFrom, hb]
  rw [recogniseNumber, skipWhile_cons_eq h hr (by decide) hdigit, hpiece, bind_eq_ok_iff]
  refine ⟨_, rfl, ?_⟩
  rw [Position.byte_eq hin, hrest, bind_eq_ok_iff, Piece.stretch, hcount, restOfNumber]
  refine ⟨_, rfl, ?_⟩
  -- A fraction needs a full stop, and a digit right behind it.
  by_cases hdot : (l.dropWhile isDigit).head? = some fullStop
  · obtain ⟨l', hl'⟩ := List.head?_eq_some_iff.1 hdot
    rw [hl'] at hrest
    obtain ⟨hadv, hin', hrest'⟩ := advance_one_eq hin hrest
    rw [if_pos ((getD_head?_beq_iff (by decide)).2 hdot), Position.nextByte_eq hin hrest,
      bind_eq_ok_iff, hl', fraction_fullStop]
    refine ⟨_, rfl, ?_⟩
    by_cases hd : isDigit ((l'.head?).getD 0)
    · rw [if_pos hd, if_pos hd, hadv, bind_eq_ok_iff]
      refine ⟨_, rfl, ?_⟩
      rw [Position.skipWhile_eq hin' (by decide), hrest', Position.moveTo_cons fullStop,
        Position.moveTo_append (b :: l.takeWhile isDigit)]
      rfl
    · rw [if_neg hd, if_neg hd, List.append_nil]
      rfl
  · rw [if_neg (mt (getD_head?_beq_iff (by decide)).1 hdot), fraction_of_ne hdot, List.append_nil]
    rfl

/-- The word at a position goes on as far as its bytes do. -/
theorem readWord_eq (h : p.InText) (hr : p.remaining = b :: l) :
    readWord p = .ok (Utf8.textOf (b :: l.takeWhile isWordByte).toByteArray,
      p.moveTo (p.offset + (b :: l.takeWhile isWordByte).length)) := by
  obtain ⟨hadv, hin, hrest⟩ := advance_one_eq h hr
  rw [readWord, hadv, bind_eq_ok_iff]
  refine ⟨_, rfl, ?_⟩
  rw [Position.skipWhile_eq hin (by decide), hrest, Position.moveTo_cons b, bind_eq_ok_iff]
  refine ⟨_, rfl, ?_⟩
  have hlen := h.length_remaining
  have hstop : p.offset + (b :: l.takeWhile isWordByte).length ≤ p.source.length := by
    have := (List.takeWhile_prefix (l := l) isWordByte).length_le
    have := (h.offset_lt hr).1
    rw [hr, List.length_cons] at hlen
    rw [List.length_cons]
    omega
  rw [bind_eq_ok_iff]
  refine ⟨_, h.wellLaid.slice_eq (Nat.le_add_right _ _) hstop, ?_⟩
  have hword : (b :: l).take (b :: l.takeWhile isWordByte).length = b :: l.takeWhile isWordByte :=
    (List.prefix_iff_eq_take.1 ((List.prefix_cons_inj b).2 (List.takeWhile_prefix _))).symm
  rw [← hr, Position.remaining] at hword
  rw [Position.offset_moveTo, Nat.add_sub_cancel_left, hword]
  rfl

theorem recogniseWord_eq (h : p.InText) (hr : p.remaining = b :: l) (hb : Lead.of b = .letter) :
    recogniseWord p line = .ok ((pieceFrom b l).stretch p line) := by
  have hne : b ≠ lineFeed := Lead.ne_lineFeed (by simp [hb])
  have hcount : (b :: l.takeWhile isWordByte).count lineFeed = 0 :=
    count_of_ne (List.forall_mem_cons.2 ⟨hne, mem_takeWhile_ne (by decide) l⟩)
  rw [recogniseWord, readWord_eq h hr, pieceFrom, hb, Piece.stretch, hcount]
  rfl

/-- At a position in a text, recognition finds the first piece of what is left. -/
theorem recognise_eq (h : p.InText) (hl : line + p.remaining.count lineFeed ≤ maxOffset) :
    recognise p line = .ok ((firstPiece p.remaining).stretch p line) := by
  cases hr : p.remaining with
  | nil =>
    rw [recognise, Position.byte_eq h, h.atEnd_eq, hr]
    rfl
  | cons b l =>
    have hne : Lead.of b ≠ .lineFeed → b ≠ lineFeed := Lead.ne_lineFeed
    rw [recognise, Position.byte_eq h, hr, bind_eq_ok_iff]
    refine ⟨b, rfl, ?_⟩
    rw [firstPiece]
    cases hb : Lead.of b with
    | zero =>
      rw [h.atEnd_eq, hr, if_neg (by simp)]
      exact recogniseOther_eq h hr (hne (by simp [hb])) |>.trans (by rw [pieceFrom, hb])
    | blank =>
      have hblank : isBlank b := Lead.isBlank_of_eq hb
      have hcount : (b :: l.takeWhile isBlank).count lineFeed = 0 :=
        count_of_ne (List.forall_mem_cons.2
          ⟨hne (by simp [hb]), mem_takeWhile_ne (by decide) l⟩)
      rw [Position.skipBlanks, skipWhile_cons_eq h hr (by decide) hblank, pieceFrom, hb,
        Piece.stretch, hcount]
      rfl
    | lineFeed =>
      have hlf : b = lineFeed := (Lead.of_eq_iff (by decide)).1 hb
      rw [hr, hlf, List.count_cons_self] at hl
      rw [(advance_one_eq h hr).1, nextLine_eq (by omega), pieceFrom, hb, hlf]
      rfl
    | carriageReturn => exact recogniseCarriageReturn_eq h hr hb hl
    | single kind =>
      have hcount := count_singleton_of_ne (hne (by simp [hb]))
      rw [(advance_one_eq h hr).1, pieceFrom, hb, Piece.stretch, hcount]
      rfl
    | pair second joined alone => exact recognisePair_eq h hr hb
    | slash => exact recogniseSlash_eq h hr hb
    | quotationMark =>
      obtain ⟨hadv, hin, hrest⟩ := advance_one_eq h hr
      have hquote : b = quotationMark := (Lead.of_eq_iff (by decide)).1 hb
      have hne' : b ≠ lineFeed := hne (by simp [hb])
      have htext : Utf8.IsText l := by
        have hascii : b < 0x80 := by
          rw [hquote]
          decide
        have hcut := (hr ▸ h.isText_append).cut (Utf8.isUTF8FirstByte_of_ascii hascii)
        exact hcut.2.tail hascii
      rw [hr, List.count_cons_of_ne hne'] at hl
      rw [hadv, bind_eq_ok_iff]
      refine ⟨_, rfl, ?_⟩
      rw [recogniseString_eq hin (hrest ▸ htext) (hrest ▸ hl), hrest, pieceFrom, hb, Piece.stretch,
        Piece.stretch, Position.moveTo_cons b, List.count_cons_of_ne hne']
    | digit => exact recogniseNumber_eq h hr hb
    | letter => exact recogniseWord_eq h hr hb
    | other =>
      exact recogniseOther_eq h hr (hne (by simp [hb])) |>.trans (by rw [pieceFrom, hb])

end Recognise

end Ivy
