import Ivy.Proofs.Readers
import Ivy.Proofs.Remaining
import Ivy.Proofs.Rests
import Ivy.Source.Line

/-!
# Lines of a source

The lines of a text on lists of bytes.  `behindLines? n l` is what is left of `l` behind `n` line
feeds, and `shownLine l` the line that `l` starts with, as it is shown.  From these two
`shownLine?` looks up a line of a text, and `Source.line?` finds what it finds (`line?_eq`).  Lines
are left behind with as many line feeds as there are in them (`EndsLine.behindLines?_eq`).
-/

namespace Ivy

/-- The bytes of `l` in front of the first line feed. -/
def firstLine (l : List UInt8) : List UInt8 := l.takeWhile (· != lineFeed)

/-- What is left of `l` behind `n` line feeds, if it has as many. -/
def behindLines? : (n : Nat) → (l : List UInt8) → Option (List UInt8)
  | 0, l => some l
  | n + 1, l =>
    match l.dropWhile (· != lineFeed) with
    | [] => none
    | _ :: l => behindLines? n l

/-- The bytes of the first line of `l` without a carriage return that comes last. -/
def shownLine (l : List UInt8) : List UInt8 :=
  if (firstLine l).getLast? = some carriageReturn then (firstLine l).dropLast else firstLine l

section Lines

variable {w : List UInt8}

theorem firstLine_of_not_mem (h : lineFeed ∉ w) : firstLine w = w :=
  List.takeWhile_eq_self_iff.2 (ne_of_not_mem h)

theorem firstLine_append (h : lineFeed ∉ w) (l : List UInt8) :
    firstLine (w ++ lineFeed :: l) = w := takeWhile_ne_append h l

theorem behindLines?_of_not_mem (h : lineFeed ∉ w) (n : Nat) : behindLines? (n + 1) w = none := by
  rw [behindLines?, List.dropWhile_eq_nil_iff.2 (ne_of_not_mem h)]

theorem behindLines?_append (h : lineFeed ∉ w) (n : Nat) (l : List UInt8) :
    behindLines? (n + 1) (w ++ lineFeed :: l) = behindLines? n l := by
  rw [behindLines?, dropWhile_ne_append h]

/-- There is something behind every line feed, if only the end. -/
theorem behindLines?_isSome_iff {n : Nat} {l : List UInt8} :
    (behindLines? n l).isSome ↔ n ≤ l.count lineFeed := by
  induction n generalizing l with
  | zero => simp [behindLines?]
  | succ n ih =>
    by_cases hmem : lineFeed ∈ l
    · obtain ⟨w, r, rfl, hw⟩ := List.eq_append_cons_of_mem hmem
      have hcount : w.count lineFeed = 0 := List.count_eq_zero.2 hw
      rw [behindLines?_append hw, ih, List.count_append, hcount, List.count_cons_self]
      omega
    · rw [behindLines?_of_not_mem hmem, List.count_eq_zero.2 hmem]
      simp

theorem not_mem_shownLine (l : List UInt8) : lineFeed ∉ shownLine l := by
  have hfirst : lineFeed ∉ firstLine l := by
    intro hmem
    simpa using List.mem_takeWhile_imp hmem
  unfold shownLine
  split
  · exact fun hmem => hfirst (List.dropLast_subset _ hmem)
  · exact hfirst

theorem firstLine_isPrefix (l : List UInt8) : firstLine l <+: l := List.takeWhile_prefix _

theorem shownLine_isPrefix (l : List UInt8) : shownLine l <+: l := by
  unfold shownLine
  split
  · exact (List.dropLast_prefix _).trans (firstLine_isPrefix l)
  · exact firstLine_isPrefix l

theorem firstLine_cons_of_ne {b : UInt8} (hb : b ≠ lineFeed) (l : List UInt8) :
    firstLine (b :: l) = b :: firstLine l := List.takeWhile_cons_of_pos (by simpa using hb)

theorem firstLine_eq_nil_iff {l : List UInt8} :
    firstLine l = [] ↔ l = [] ∨ l.head? = some lineFeed := by
  cases l with
  | nil => simp [firstLine]
  | cons b l => by_cases hb : b = lineFeed <;> simp [firstLine, hb]

/-- A line is shown up to its end, or up to a carriage return that is the last byte of all. -/
theorem exists_shownLine_append (l : List UInt8) :
    ∃ r, l = shownLine l ++ r ∧ (atLineEnd r ∨ r = [carriageReturn]) := by
  have hcut {w r : List UInt8} (hl : l = w ++ r) (hw : firstLine l = w) (hr : atLineEnd r)
      (hhead : r = [] ∨ r.head? = some lineFeed) :
      ∃ r, l = shownLine l ++ r ∧ (atLineEnd r ∨ r = [carriageReturn]) := by
    rw [shownLine, hw]
    split
    · next hlast =>
      obtain ⟨v, rfl⟩ := List.getLast?_eq_some_iff.1 hlast
      refine ⟨carriageReturn :: r, ?_, ?_⟩
      · rw [List.dropLast_concat, hl, List.append_assoc, List.singleton_append]
      · rcases hhead with rfl | hhead
        · exact .inr rfl
        · exact .inl (atLineEnd_cons_iff.2 (.inr ⟨rfl, hhead⟩))
    · exact ⟨r, hl, .inl hr⟩
  by_cases hmem : lineFeed ∈ l
  · obtain ⟨w, r, rfl, hw⟩ := List.eq_append_cons_of_mem hmem
    exact hcut rfl (firstLine_append hw r) (atLineEnd_cons_iff.2 (.inl rfl)) (.inr rfl)
  · exact hcut (List.append_nil l).symm (firstLine_of_not_mem hmem) rfl (.inl rfl)

theorem isText_shownLine {l : List UInt8} (h : Utf8.IsText l) : Utf8.IsText (shownLine l) := by
  obtain ⟨r, hr, hend⟩ := exists_shownLine_append l
  rw [hr] at h
  cases r with
  | nil => rwa [List.append_nil] at h
  | cons b r =>
    have hascii : b < 0x80 := by
      rcases hend with hend | hend
      · rcases atLineEnd_cons_iff.1 hend with rfl | ⟨rfl, -⟩ <;> decide
      · rw [(List.cons.inj hend).1]
        decide
    exact (h.cut (Utf8.isUTF8FirstByte_of_ascii hascii)).1

/-- A byte of a line is shown if it is not part of the line end, nor the last byte of all and a
carriage return. -/
theorem lt_length_shownLine {b : UInt8} {l : List UInt8} (hw : lineFeed ∉ w) (hb : b ≠ lineFeed)
    (hcr : b = carriageReturn → l ≠ [] ∧ l.head? ≠ some lineFeed) :
    w.length < (shownLine (w ++ b :: l)).length := by
  have hfirst : firstLine (w ++ b :: l) = w ++ b :: firstLine l := by
    rw [← firstLine_cons_of_ne hb]
    exact List.takeWhile_append_of_pos (ne_of_not_mem hw)
  rw [shownLine, hfirst]
  split
  · next hlast =>
    have hne : firstLine l ≠ [] := by
      intro hnil
      rw [hnil, List.getLast?_concat, Option.some.injEq] at hlast
      have hrest := hcr hlast
      rcases firstLine_eq_nil_iff.1 hnil with hl | hl
      · exact hrest.1 hl
      · exact hrest.2 hl
    have hpos := List.length_pos_iff.2 hne
    rw [List.length_dropLast, List.length_append, List.length_cons]
    omega
  · rw [List.length_append, List.length_cons]
    omega

end Lines

/-! ## Whole lines -/

/-- Whether a line ends where the bytes `v` end, or nothing is in front. -/
def EndsLine (v : List UInt8) : Prop := v = [] ∨ v.getLast? = some lineFeed

section EndsLine

variable {b : UInt8} {v : List UInt8}

theorem EndsLine.tail (h : EndsLine (b :: v)) : EndsLine v := by
  cases v with
  | nil => exact .inl rfl
  | cons c v =>
    rcases h with h | h
    · cases h
    · exact .inr (by rwa [List.getLast?_cons_cons] at h)

/-- Behind lines there is what is behind their line feeds. -/
theorem EndsLine.behindLines?_eq (h : EndsLine v) (l : List UInt8) :
    behindLines? (v.count lineFeed) (v ++ l) = some l := by
  induction v with
  | nil => rfl
  | cons b v ih =>
    by_cases hb : b = lineFeed
    · rw [hb, List.count_cons_self]
      exact (behindLines?_append List.not_mem_nil _ _).trans (ih h.tail)
    · have hmem : lineFeed ∈ v := by
        rcases h with h | h
        · cases h
        · exact (List.mem_cons.1 (List.mem_of_getLast? h)).resolve_left (Ne.symm hb)
      have hdrop : (b :: v ++ l).dropWhile (· != lineFeed) =
          (v ++ l).dropWhile (· != lineFeed) := List.dropWhile_cons_of_pos (by simpa using hb)
      obtain ⟨n, hn⟩ := Nat.exists_eq_add_of_lt (List.count_pos_iff.2 hmem)
      have hrest := ih h.tail
      rw [Nat.zero_add] at hn
      rw [hn, behindLines?] at hrest
      rw [List.count_cons_of_ne hb, hn, behindLines?, hdrop, hrest]

/-- A text falls into two where a line ends. -/
theorem EndsLine.isText {l : List UInt8} (h : EndsLine v) (ht : Utf8.IsText (v ++ l)) :
    Utf8.IsText v := by
  rcases h with rfl | h
  · exact Utf8.isText_nil
  · obtain ⟨v, rfl⟩ := List.getLast?_eq_some_iff.1 h
    rw [List.append_assoc] at ht
    have hv := (ht.cut (Utf8.isUTF8FirstByte_of_ascii (by decide))).1
    exact hv.append (Utf8.isText_cons (by decide) Utf8.isText_nil)

/-- Bytes are lines and then what is on the line on which they end. -/
theorem exists_endsLine_append (u : List UInt8) :
    ∃ v w, u = v ++ w ∧ EndsLine v ∧ lineFeed ∉ w := by
  by_cases hmem : lineFeed ∈ u.reverse
  · obtain ⟨w, v, hu, hw⟩ := List.eq_append_cons_of_mem hmem
    refine ⟨v.reverse ++ [lineFeed], w.reverse, ?_, .inr List.getLast?_concat, by simpa using hw⟩
    rw [← List.reverse_inj, hu]
    simp
  · exact ⟨[], u, rfl, .inl rfl, by simpa using hmem⟩

end EndsLine

namespace Source

open Position

variable {p : Position}

/-- The first line feed from a position on. -/
theorem lineFeed?_eq (h : p.InText) :
    (p.source.lineFeed? p.offset = .ok none ∧ lineFeed ∉ p.remaining) ∨
      ∃ w l, p.remaining = w ++ lineFeed :: l ∧ lineFeed ∉ w ∧
        p.source.lineFeed? p.offset = .ok (some (p.offset + w.length)) := by
  have hle := h.offset_le
  have hsearch : p.source.lineFeed? p.offset = p.find? (· == lineFeed) := by
    have hlt := h.wellLaid.length_lt
    rw [lineFeed?, Position.find?, if_neg (by omega), if_neg (by omega), if_neg (by omega)]
  rw [hsearch]
  rcases find?_eq h (· == lineFeed) with ⟨hnone, hall⟩ | ⟨w, b, l, hr, hw, hb, hsome⟩
  · exact .inl ⟨hnone, fun hmem => hall _ hmem (beq_self_eq_true _)⟩
  · have hw' : lineFeed ∉ w := fun hmem => hw _ hmem (beq_self_eq_true _)
    exact .inr ⟨w, l, by rw [hr, eq_of_beq hb], hw', hsome⟩

/-- The start of a line is the place behind the line feeds in front of it, if there are as many. -/
theorem lineStart?_eq (h : p.InText) (n : Nat) :
    (p.source.lineStart? p.offset n = .ok none ∧ behindLines? n p.remaining = none) ∨
      ∃ i, (p.moveTo i).InText ∧ behindLines? n p.remaining = some (p.moveTo i).remaining ∧
        p.source.lineStart? p.offset n = .ok (some i) := by
  induction n generalizing p with
  | zero => exact .inr ⟨p.offset, h, rfl, rfl⟩
  | succ n ih =>
    rw [lineStart?]
    rcases lineFeed?_eq h with ⟨hnone, hmem⟩ | ⟨w, l, hr, hw, hsome⟩
    · exact .inl ⟨by rw [hnone]; rfl, behindLines?_of_not_mem hmem n⟩
    · have hnext : (p.moveTo (p.offset + (w.length + 1))).InText := h.moveTo (by simp [hr])
      have hrest : (p.moveTo (p.offset + (w.length + 1))).remaining = l := by
        rw [remaining_moveTo, hr, List.drop_append]
        simp
      have hline := ih hnext
      rw [hrest] at hline
      rw [hsome, hr, behindLines?_append hw]
      exact hline

/-- A line is shown up to where it stops. -/
theorem lineStop_eq (h : p.InText) :
    p.source.lineStop p.offset = .ok (p.offset + (shownLine p.remaining).length) := by
  have hend : ∃ o, p.source.lineFeed? p.offset = .ok o ∧
      o.getD p.source.length = p.offset + (firstLine p.remaining).length := by
    rcases lineFeed?_eq h with ⟨hnone, hmem⟩ | ⟨w, l, hr, hw, hsome⟩
    · have hlen := h.length_remaining
      have hle := h.offset_le
      refine ⟨none, hnone, ?_⟩
      rw [firstLine_of_not_mem hmem, hlen, Option.getD_none]
      omega
    · refine ⟨_, hsome, ?_⟩
      rw [hr, firstLine_append hw, Option.getD_some]
  obtain ⟨o, ho, hstop⟩ := hend
  rw [lineStop, ho, bind_eq_ok_iff]
  refine ⟨o, rfl, ?_⟩
  rw [hstop, shownLine]
  rcases List.eq_nil_or_concat (firstLine p.remaining) with hnil | ⟨w, c, hlast⟩
  · simp [hnil, pure, Except.pure]
  · rw [List.concat_eq_append] at hlast
    obtain ⟨r, hr⟩ := firstLine_isPrefix p.remaining
    rw [hlast] at hr ⊢
    have hc : p.source.byteAt (p.offset + (w ++ [c]).length - 1) = c := by
      rw [List.length_append, List.length_singleton, ← Nat.add_assoc, Nat.add_sub_cancel,
        h.byteAt_add, ← hr]
      simp
    have hlt : p.offset < p.offset + (w ++ [c]).length := by simp
    simp only [hc, hlt, decide_true, Bool.true_and, beq_iff_eq, List.getLast?_concat,
      Option.some.injEq, List.dropLast_concat, pure, Except.pure]
    by_cases hcr : c = carriageReturn
    · rw [if_pos hcr, if_pos hcr, List.length_append, List.length_singleton, ← Nat.add_assoc,
        Nat.add_sub_cancel]
    · rw [if_neg hcr, if_neg hcr]

/-- The text of the line that starts at a position. -/
theorem slice_lineStop (h : p.InText) :
    p.source.slice p.offset (p.offset + (shownLine p.remaining).length) =
      .ok (Utf8.textOf (shownLine p.remaining).toByteArray) := by
  have hprefix := shownLine_isPrefix p.remaining
  have hle := hprefix.length_le
  have hlen := h.length_remaining
  have hoffset := h.offset_le
  rw [h.wellLaid.slice_eq (Nat.le_add_right _ _) (by omega), Nat.add_sub_cancel_left]
  exact congrArg (fun w => Except.ok (Utf8.textOf w.toByteArray))
    (List.prefix_iff_eq_take.1 hprefix).symm

end Source

/-- The text of line `n` of a text as it is shown, if there is such a line. -/
def shownLine? (text : String) : (n : Nat) → Option String
  | 0 => none
  | n + 1 => (behindLines? n (Utf8.bytesOf text)).map fun l =>
    Utf8.textOf (shownLine l).toByteArray

/-- Looking up a line of a text does not fail. -/
theorem line?_eq {text : String} (h : text.utf8ByteSize ≤ maxOffset) (n : Nat) :
    (Source.ofString text).line? n = .ok (shownLine? text n) := by
  cases n with
  | zero => rfl
  | succ n =>
    have hstart := Source.lineStart?_eq (inText_start h) n
    rw [remaining_start h, Source.source_start, Source.offset_start] at hstart
    rw [Source.line?, shownLine?, bind_eq_ok_iff]
    rcases hstart with ⟨hnone, hrest⟩ | ⟨i, hi, hrest, hsome⟩
    · rw [hrest]
      exact ⟨none, hnone, rfl⟩
    · have hstop := Source.lineStop_eq hi
      have hslice := Source.slice_lineStop hi
      rw [Position.source_moveTo, Source.source_start, Position.offset_moveTo] at hstop hslice
      refine ⟨some i, hsome, ?_⟩
      rw [hrest, Option.map_some]
      simp only [bind_eq_ok_iff]
      exact ⟨_, hstop, _, hslice, rfl⟩

end Ivy
