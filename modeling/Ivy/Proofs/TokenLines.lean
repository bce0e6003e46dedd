import Ivy.Proofs.Lexemes
import Ivy.Proofs.Lines
import Ivy.Proofs.OutputLines
import Ivy.Proofs.SourceLines

/-!
# Lines of tokens

The line that is shown for a token is the one on which the token starts, by the line feeds in front
of it, and shows the first byte of the token; only a carriage return that ends the text is not
shown.  There is a line for every number up to one more than the line feeds of the text
(`tokenize_standsOn`).
-/

namespace Ivy

/-! ## Lines that are shown -/

/-- Whether `line` is what is shown of line `n` of a text, which starts at `start`. -/
structure IsLine (text : String) (n : Nat) (line : String) (start : Nat) : Prop where
  start_le : start ≤ text.utf8ByteSize
  lineAt_eq : lineAt text start = n
  start_eq : start = 0 ∨ (Utf8.bytesOf text)[start - 1]? = some lineFeed
  eq_append : ∃ front back, text = front ++ line ++ back ∧ front.utf8ByteSize = start ∧
    (atLineEnd (Utf8.bytesOf back) ∨ back = "\r")
  lineFeed_notMem : '\n' ∉ line.toList

section Shown

variable {text : String} {v l : List UInt8}

theorem shownLine?_eq_none_iff {n : Nat} :
    shownLine? text n = none ↔ n = 0 ∨ 1 + (Utf8.bytesOf text).count lineFeed < n := by
  cases n with
  | zero => exact iff_of_true rfl (.inl rfl)
  | succ n =>
    rw [shownLine?, Option.map_eq_none_iff, ← Option.not_isSome_iff_eq_none,
      behindLines?_isSome_iff]
    omega

theorem lineFeed_notMem_shownLine? {n : Nat} {line : String} (h : shownLine? text n = some line) :
    '\n' ∉ line.toList := by
  cases n with
  | zero => cases h
  | succ n =>
    obtain ⟨l, -, rfl⟩ := Option.map_eq_some_iff.1 h
    exact Utf8.lineFeed_notMem_textOf (not_mem_shownLine l)

/-- Behind whole lines of a text the next one is shown. -/
theorem shownLine?_of_append (h : Utf8.bytesOf text = v ++ l) (hv : EndsLine v) :
    shownLine? text (1 + v.count lineFeed) = some (Utf8.textOf (shownLine l).toByteArray) := by
  rw [Nat.add_comm, shownLine?, h, hv.behindLines?_eq, Option.map_some]

theorem isLine_of_append (h : Utf8.bytesOf text = v ++ l) (hv : EndsLine v) :
    IsLine text (1 + v.count lineFeed) (Utf8.textOf (shownLine l).toByteArray) v.length := by
  have htext : Utf8.IsText (v ++ l) := h ▸ Utf8.isText_bytesOf text
  have hfront := hv.isText htext
  have hshown := isText_shownLine (htext.of_append hfront)
  obtain ⟨r, hr, hend⟩ := exists_shownLine_append l
  obtain ⟨front, rest, rfl, rfl, hrest⟩ := Utf8.exists_eq_append h hfront
  obtain ⟨line, back, rfl, hline, rfl⟩ := Utf8.exists_eq_append (hrest.trans hr) hshown
  rw [← hline, Utf8.textOf_bytesOf, Utf8.length_bytesOf]
  exact
    { start_le := by
        rw [String.utf8ByteSize_append]
        exact Nat.le_add_right _ _
      lineAt_eq := by rw [lineAt, Utf8.bytesOf_append, ← Utf8.length_bytesOf, List.take_left]
      start_eq := by
        rw [← Utf8.length_bytesOf]
        rcases hv with hnil | hlast
        · exact .inl (by rw [hnil, List.length_nil])
        · have hpos := List.length_pos_iff.2 (List.ne_nil_of_mem (List.mem_of_getLast? hlast))
          rw [List.getLast?_eq_getElem?] at hlast
          right
          rwa [Utf8.bytesOf_append, List.getElem?_append_left (by omega)]
      eq_append := by
        refine ⟨front, back, (String.append_assoc ..).symm, rfl, ?_⟩
        exact hend.imp_right fun hback => Utf8.bytesOf_inj.1 hback
      lineFeed_notMem := by
        rw [← lineFeed_mem_bytesOf_iff, hline]
        exact not_mem_shownLine l }

/-- In front of an offset there are whole lines, and then what is on the line of the offset. -/
theorem exists_lines_before {offset : Nat} (h : offset ≤ text.utf8ByteSize) : ∃ v w,
    Utf8.bytesOf text = v ++ (w ++ (Utf8.bytesOf text).drop offset) ∧ EndsLine v ∧
      lineFeed ∉ w ∧ offset = v.length + w.length ∧
      lineAt text offset = 1 + v.count lineFeed ∧ bytesBetween text v.length offset = w := by
  obtain ⟨v, w, hfront, hv, hw⟩ := exists_endsLine_append ((Utf8.bytesOf text).take offset)
  have htext : Utf8.bytesOf text = v ++ (w ++ (Utf8.bytesOf text).drop offset) := by
    rw [← List.append_assoc, ← hfront, List.take_append_drop]
  have hlen : offset = v.length + w.length := by
    rw [← Utf8.length_bytesOf] at h
    rw [← List.length_append, ← hfront, List.length_take, Nat.min_eq_left h]
  refine ⟨v, w, htext, hv, hw, hlen, ?_, ?_⟩
  · rw [lineAt, hfront, List.count_append, List.count_eq_zero.2 hw, Nat.add_zero]
  · have hrest := congrArg (List.drop v.length) htext
    rw [List.drop_left] at hrest
    rw [bytesBetween, hrest, hlen, Nat.add_sub_cancel_left, List.take_left]

end Shown

/-! ## Lines of tokens -/

/-- Whether a token stands on the line that is shown as `line` and starts at `start`, and its first
byte is shown. -/
structure Token.StandsOn (t : Token) (text line : String) (start : Nat) : Prop where
  isLine : IsLine text t.line line start
  start_le : start ≤ t.start
  lineFeed_notMem : lineFeed ∉ bytesBetween text start t.start
  start_lt : t.kind ≠ .eof → ¬ (t.start + 1 = text.utf8ByteSize ∧
    (Utf8.bytesOf text)[t.start]? = some carriageReturn) → t.start < start + line.utf8ByteSize

section Tokens

variable {text : String} {comments : CommentMode} {t : Token}

namespace Token.Heads

variable {b : UInt8} {rest : List UInt8}

/-- No token starts with a line end. -/
theorem ne_lineFeed (h : t.Heads comments (Utf8.bytesOf text) b rest) : b ≠ lineFeed := by
  rintro rfl
  have hk := h.kind?_eq
  rw [pieceFrom, (by decide : Lead.of lineFeed = .lineFeed)] at hk
  cases hk

theorem head?_ne_lineFeed (h : t.Heads comments (Utf8.bytesOf text) b rest)
    (hb : b = carriageReturn) : rest.head? ≠ some lineFeed := by
  intro hhead
  have hk := h.kind?_eq
  rw [hb, pieceFrom, (by decide : Lead.of carriageReturn = .carriageReturn)] at hk
  simp only [if_pos hhead] at hk
  cases hk

/-- The first byte of a token is shown, with whatever is in front of it on its line. -/
theorem lt_length_shownLine (h : t.Heads comments (Utf8.bytesOf text) b rest) {w : List UInt8}
    (hw : lineFeed ∉ w) (hlast : ¬ (t.start + 1 = text.utf8ByteSize ∧
      (Utf8.bytesOf text)[t.start]? = some carriageReturn)) :
    w.length < (shownLine (w ++ b :: rest)).length := by
  apply Ivy.lt_length_shownLine hw h.ne_lineFeed
  refine fun hb => ⟨?_, h.head?_ne_lineFeed hb⟩
  rintro rfl
  exact hlast ⟨h.start_add_length, hb ▸ h.getElem?_start⟩

end Token.Heads

theorem start_le_of_mem (h : t ∈ tokensOf comments 0 1 (pieces (Utf8.bytesOf text))) :
    t.start ≤ text.utf8ByteSize := by
  rcases heads_of_mem h (Utf8.isText_bytesOf text) with ⟨b, rest, hheads⟩ | rfl
  · exact Nat.le_trans (Nat.le_of_lt hheads.start_lt) hheads.stop_le
  · exact Nat.le_of_eq (Utf8.length_bytesOf text)

/-- A token stands on the line that starts behind the whole lines in front of it. -/
theorem exists_standsOn (h : t ∈ tokensOf comments 0 1 (pieces (Utf8.bytesOf text))) :
    ∃ line start, shownLine? text t.line = some line ∧ t.StandsOn text line start := by
  obtain ⟨v, w, htext, hv, hw, hlen, hnumber, hbetween⟩ := exists_lines_before (start_le_of_mem h)
  have hline : t.line = 1 + v.count lineFeed := (line_eq_of_mem h).trans hnumber
  have hshown : Utf8.IsText (shownLine (w ++ (Utf8.bytesOf text).drop t.start)) := by
    have hall : Utf8.IsText (v ++ (w ++ (Utf8.bytesOf text).drop t.start)) :=
      htext ▸ Utf8.isText_bytesOf text
    exact isText_shownLine (hall.of_append (hv.isText hall))
  refine ⟨_, v.length, hline ▸ shownLine?_of_append htext hv, ?_⟩
  exact
    { isLine := hline ▸ isLine_of_append htext hv
      start_le := Nat.le.intro hlen.symm
      lineFeed_notMem := by rwa [hbetween]
      start_lt := by
        intro hkind hlast
        rcases heads_of_mem h (Utf8.isText_bytesOf text) with ⟨b, rest, hheads⟩ | rfl
        · rw [← Utf8.length_bytesOf, hshown.bytesOf_textOf, hheads.drop_eq, hlen]
          exact Nat.add_lt_add_left (hheads.lt_length_shownLine hw hlast) _
        · exact absurd rfl hkind }

/-- The line of a token can be shown. -/
theorem exists_shownLine? (h : t ∈ tokensOf comments 0 1 (pieces (Utf8.bytesOf text))) :
    ∃ line, shownLine? text t.line = some line := by
  obtain ⟨line, -, hshown, -⟩ := exists_standsOn h
  exact ⟨line, hshown⟩

end Tokens

/-- The line that is looked up for a token is the line on which it stands, and there is a line for
each number up to that of the last one. -/
theorem tokenize_standsOn {text : String} (comments : CommentMode)
    (h : text.utf8ByteSize < maxOffset) :
    (∀ n, ∃ line?, (Source.ofString text).line? n = .ok line? ∧
      (line? = none ↔ n = 0 ∨ 1 + (Utf8.bytesOf text).count lineFeed < n)) ∧
    ∃ tokens, tokenize text comments = .ok tokens ∧ ∀ t ∈ tokens, ∃ line start,
      (Source.ofString text).line? t.line = .ok (some line) ∧ t.StandsOn text line start := by
  have hlook := line?_eq (Nat.le_of_lt h)
  constructor
  · exact fun n => ⟨_, hlook n, shownLine?_eq_none_iff⟩
  · refine ⟨_, tokenize_of_lt h, fun t ht => ?_⟩
    obtain ⟨line, start, hshown, hstands⟩ := exists_standsOn ht
    exact ⟨line, start, (hlook t.line).trans (congrArg Except.ok hshown), hstands⟩

theorem tokenize_standsOn_carriageReturns :
    "é\r\n\"\n\" x\r\r".utf8ByteSize < maxOffset ∧
      (∀ n, ∃ line?, (Source.ofString "é\r\n\"\n\" x\r\r").line? n = .ok line? ∧
        (line? = none ↔
          n = 0 ∨ 1 + (Utf8.bytesOf "é\r\n\"\n\" x\r\r").count lineFeed < n)) ∧
      ∃ tokens, tokenize "é\r\n\"\n\" x\r\r" .retain = .ok tokens ∧
        ∀ t ∈ tokens, ∃ line start,
          (Source.ofString "é\r\n\"\n\" x\r\r").line? t.line = .ok (some line) ∧
          t.StandsOn "é\r\n\"\n\" x\r\r" line start :=
  ⟨by decide, tokenize_standsOn .retain (by decide)⟩

end Ivy
