import Ivy.Proofs.Lengthening
import Ivy.Proofs.Lexemes
import Ivy.Proofs.Reports
import Mathlib.Data.List.Basic

/-!
# Long line ends

A text without carriage returns and the same text with its line ends written as carriage return and
line feed have the same tokens on the same lines, each moved by the line ends in front of it, show
the same lines and are reported on in the same words (`tokenize_longLineEnds`).
-/

namespace Ivy

/-- The text with every line feed written as a carriage return and a line feed. -/
def longLineEnds (text : String) : String :=
  String.ofList (text.toList.flatMap fun c => if c = '\n' then ['\r', '\n'] else [c])

example : longLineEnds "a\n\nb" = "a\r\n\r\nb" := by decide

/-- Where the byte at offset `i` of a text stands once its line ends are long. -/
def longOffset (text : String) (i : Nat) : Nat := i + ((Utf8.bytesOf text).take i).count lineFeed

/-- The token with its offsets mapped. -/
def Token.mapSpan (f : Nat → Nat) (t : Token) : Token :=
  { t with start := f t.start, stop := f t.stop }

/-- The error with its offsets mapped. -/
def LexicalError.mapSpan (f : Nat → Nat) (e : LexicalError) : LexicalError :=
  { e with start := f e.start, stop := f e.stop }

/-! ## Characters -/

section Characters

theorem lengthen_encode (cs : List Char) : lengthen (Utf8.encode cs) =
    Utf8.encode (cs.flatMap fun c => if c = '\n' then ['\r', '\n'] else [c]) := by
  induction cs with
  | nil => rfl
  | cons c cs ih =>
    rw [Utf8.encode_cons, lengthen_append, ih, List.flatMap_cons, Utf8.encode_append]
    congr 1
    split
    · next hc =>
      rw [hc]
      decide
    · next hc =>
      rw [lengthen_of_not_mem (Utf8.not_mem_encodeChar (by decide) (by decide) hc),
        Utf8.encode_cons, Utf8.encode_nil, List.append_nil]

theorem bytesOf_longLineEnds (text : String) :
    Utf8.bytesOf (longLineEnds text) = lengthen (Utf8.bytesOf text) := by
  rw [Utf8.bytesOf_eq_encode, Utf8.bytesOf_eq_encode, lengthen_encode, longLineEnds,
    String.toList_ofList]

theorem utf8ByteSize_le_longLineEnds (text : String) :
    text.utf8ByteSize ≤ (longLineEnds text).utf8ByteSize := by
  rw [← Utf8.length_bytesOf, ← Utf8.length_bytesOf, bytesOf_longLineEnds, length_lengthen]
  exact Nat.le_add_right _ _

/-- A lexeme that does not start with a line feed tells the same cause. -/
theorem ofLexeme_lengthen {w : List UInt8} (hw : Utf8.IsText w)
    (hhead : w.head? ≠ some lineFeed) :
    Cause.ofLexeme (Utf8.textOf (lengthen w).toByteArray) =
      Cause.ofLexeme (Utf8.textOf w.toByteArray) := by
  obtain ⟨cs, rfl⟩ := hw
  cases cs with
  | nil => rfl
  | cons c cs =>
    have hc : c ≠ '\n' := by
      rintro rfl
      exact hhead rfl
    rw [lengthen_encode, Utf8.textOf_encode, Utf8.textOf_encode, Cause.ofLexeme, Cause.ofLexeme,
      String.toList_ofList, String.toList_ofList, List.flatMap_cons, if_neg hc]
    rfl

end Characters

/-! ## Tokens -/

section Tokens

theorem Piece.Starts.head?_bytes {b : UInt8} {l : List UInt8} {s : Piece} (h : s.Starts b l) :
    s.bytes.head? = some b := by
  obtain ⟨c, w, hw⟩ := List.exists_cons_of_length_pos h.length_pos
  have hprefix := h.isPrefix
  rw [hw] at hprefix ⊢
  rw [(List.cons_prefix_cons.1 hprefix).1, List.head?_cons]

theorem longOffset_of_append {text : String} {v w : List UInt8} (h : Utf8.bytesOf text = v ++ w) :
    longOffset text v.length = (lengthen v).length := by
  rw [longOffset, h, List.take_left, length_lengthen]

/-- Part of a text with long line ends. -/
theorem bytesBetween_longLineEnds {text : String} {v w r : List UInt8}
    (h : Utf8.bytesOf text = v ++ (w ++ r)) :
    longOffset text v.length ≤ longOffset text (v ++ w).length ∧
      longOffset text (v ++ w).length ≤ (longLineEnds text).utf8ByteSize ∧
      bytesBetween (longLineEnds text) (longOffset text v.length)
        (longOffset text (v ++ w).length) = lengthen w := by
  have hstart := longOffset_of_append h
  have hbytes := bytesOf_longLineEnds text
  rw [h, lengthen_append, lengthen_append] at hbytes
  rw [← List.append_assoc] at h
  have hstop := longOffset_of_append h
  have hlen := congrArg List.length hbytes
  rw [Utf8.length_bytesOf, List.length_append, List.length_append] at hlen
  rw [bytesBetween, hbytes, hstart, hstop, lengthen_append, List.length_append, List.drop_left,
    Nat.add_sub_cancel_left, List.take_left]
  exact ⟨by omega, by omega, rfl⟩

/-- Lengthened pieces make the same tokens, further on. -/
theorem tokensOf_lengthen {text : String} {comments : CommentMode} (line : Nat) {v : List UInt8}
    {ps : List Piece} (h : Utf8.bytesOf text = v ++ ps.flatMap Piece.bytes) :
    tokensOf comments (lengthen v).length line (ps.map Piece.lengthen) =
      (tokensOf comments v.length line ps).map (Token.mapSpan (longOffset text)) := by
  induction ps generalizing v line with
  | nil =>
    rw [List.map_nil, tokensOf, tokensOf, List.map_singleton, Token.mapSpan,
      longOffset_of_append h]
  | cons s ps ih =>
    rw [List.flatMap_cons, ← List.append_assoc] at h
    have hrest := ih (line + s.bytes.count lineFeed) h
    have hstop := longOffset_of_append h
    rw [List.append_assoc] at h
    have hstart := longOffset_of_append h
    rw [lengthen_append, List.length_append, List.length_append] at hrest hstop
    rw [List.map_cons, tokensOf, tokensOf, List.map_append, Piece.lengthen, count_lengthen, hrest]
    congr 1
    cases s.form.kind? comments with
    | none => rfl
    | some kind =>
      simp only [Option.map_some, Option.toList_some, List.map_singleton, Token.mapSpan, hstart,
        hstop]

variable {text : String} {comments : CommentMode} {t : Token} {b : UInt8} {rest : List UInt8}

/-- The lexeme of a token in a text with long line ends. -/
theorem Token.Heads.lexeme_mapSpan (h : t.Heads comments (Utf8.bytesOf text) b rest)
    (hsize : (longLineEnds text).utf8ByteSize ≤ maxOffset) :
    (Source.ofString (longLineEnds text)).lexeme (t.mapSpan (longOffset text)) =
      Utf8.textOf (lengthen (pieceFrom b rest).bytes).toByteArray := by
  have hsplit := (List.take_append_drop t.start (Utf8.bytesOf text)).symm
  rw [← bytesBetween_append_drop text (Nat.le_of_lt h.start_lt), h.bytesBetween_eq] at hsplit
  have hstop := h.stop_le
  have hv : ((Utf8.bytesOf text).take t.start).length = t.start := by
    have hstart := h.start_lt
    rw [List.length_take, Utf8.length_bytesOf]
    omega
  obtain ⟨hle, hsize', hbetween⟩ := bytesBetween_longLineEnds hsplit
  rw [List.length_append, hv, ← h.stop_eq] at hle hsize' hbetween
  rw [Source.lexeme, ← hbetween]
  exact text_ofString hsize hle hsize'

/-- An invalid token of a text with long line ends tells the same cause. -/
theorem error?_mapSpan (hsize : (longLineEnds text).utf8ByteSize ≤ maxOffset)
    (ht : t ∈ tokensOf comments 0 1 (pieces (Utf8.bytesOf text))) :
    (t.mapSpan (longOffset text)).error? (Source.ofString (longLineEnds text)) =
      (t.error? (Source.ofString text)).map (LexicalError.mapSpan (longOffset text)) := by
  rcases heads_of_mem ht (Utf8.isText_bytesOf text) with ⟨b, rest, hheads⟩ | rfl
  · have hstarts := starts_pieceFrom b rest
    have hb : b ≠ lineFeed := by
      rintro rfl
      cases hheads.kind?_eq
    have hhead : (pieceFrom b rest).bytes.head? ≠ some lineFeed := by
      rw [hstarts.head?_bytes]
      exact fun hhead => hb (Option.some.inj hhead)
    have hcause := ofLexeme_lengthen (hstarts.isText hheads.isText) hhead
    have hsize' := Nat.le_trans (utf8ByteSize_le_longLineEnds text) hsize
    rw [← hheads.lexeme_mapSpan hsize, ← hheads.lexeme_eq hsize'] at hcause
    rw [Token.error?, Token.error?, hcause]
    show (if t.kind.isError then _ else _) = _
    split
    · rfl
    · rfl
  · rfl

/-- The errors of a text with long line ends are the same, further on. -/
theorem errors_mapSpan (comments : CommentMode)
    (hsize : (longLineEnds text).utf8ByteSize ≤ maxOffset) :
    (Source.ofString (longLineEnds text)).errors
        ((tokensOf comments 0 1 (pieces (Utf8.bytesOf text))).map
          (Token.mapSpan (longOffset text))) =
      ((Source.ofString text).errors (tokensOf comments 0 1 (pieces (Utf8.bytesOf text)))).map
        (LexicalError.mapSpan (longOffset text)) := by
  rw [Source.errors, Source.errors, List.filterMap_map, List.map_filterMap]
  exact List.filterMap_congr fun t ht => error?_mapSpan hsize ht

end Tokens

/-! ## Texts -/

section Text

variable {text : String}

theorem shownLine?_longLineEnds (hcr : carriageReturn ∉ Utf8.bytesOf text) (n : Nat) :
    shownLine? (longLineEnds text) n = shownLine? text n := by
  cases n with
  | zero => rfl
  | succ n =>
    have h := congrArg (Option.map fun w => Utf8.textOf w.toByteArray)
      (map_shownLine_lengthen hcr n)
    rw [Option.map_map, Option.map_map, ← bytesOf_longLineEnds] at h
    exact h

theorem linesOf_longLineEnds {comments : CommentMode}
    (hsize : (longLineEnds text).utf8ByteSize ≤ maxOffset)
    (hcr : carriageReturn ∉ Utf8.bytesOf text) :
    Report.linesOf (longLineEnds text) ((tokensOf comments 0 1 (pieces (Utf8.bytesOf text))).map
        (Token.mapSpan (longOffset text))) false =
      Report.linesOf text (tokensOf comments 0 1 (pieces (Utf8.bytesOf text))) false := by
  have herrors := errors_mapSpan comments hsize
  have htold (e : LexicalError) : Report.errorLinesOf (longLineEnds text)
      (e.mapSpan (longOffset text)) = Report.errorLinesOf text e := by
    rw [Report.errorLinesOf, Report.errorLinesOf, LexicalError.mapSpan,
      shownLine?_longLineEnds hcr]
    rfl
  simp only [Report.linesOf, herrors, List.flatMap_map, htold, List.isEmpty_map,
    Bool.false_eq_true, if_false]

/-- Long line ends move the tokens of a text and change neither its lines as they are shown nor
what is reported on it. -/
theorem tokenize_longLineEnds (comments : CommentMode)
    (hcr : carriageReturn ∉ Utf8.bytesOf text)
    (h : (longLineEnds text).utf8ByteSize < maxOffset) :
    (∃ tokens, tokenize text comments = .ok tokens ∧ tokenize (longLineEnds text) comments =
        .ok (tokens.map (Token.mapSpan (longOffset text)))) ∧
      (∀ n, ∃ line?, (Source.ofString text).line? n = .ok line? ∧
        (Source.ofString (longLineEnds text)).line? n = .ok line?) ∧
      ∀ out err, ∃ r r', report text comments false out err = .ok r ∧
        report (longLineEnds text) comments false out err = .ok r' ∧
        r'.toWritten = r.toWritten := by
  have hsize := Nat.le_of_lt h
  have hlt := Nat.lt_of_le_of_lt (utf8ByteSize_le_longLineEnds text) h
  have hlong : tokenize (longLineEnds text) comments = .ok
      ((tokensOf comments 0 1 (pieces (Utf8.bytesOf text))).map
        (Token.mapSpan (longOffset text))) := by
    have hpieces := flatMap_bytes_pieces (Utf8.bytesOf text)
    rw [tokenize_of_lt h, bytesOf_longLineEnds, pieces_lengthen (Utf8.isText_bytesOf text) hcr]
    exact congrArg Except.ok (tokensOf_lengthen 1 (v := []) hpieces.symm)
  refine ⟨⟨_, tokenize_of_lt hlt, hlong⟩, fun n => ?_, fun out err => ?_⟩
  · refine ⟨_, line?_eq (Nat.le_of_lt hlt) n, ?_⟩
    rw [line?_eq hsize, shownLine?_longLineEnds hcr]
  · obtain ⟨tokens, htokens, hreport⟩ :=
      exists_report comments (Nat.le_of_lt hlt) (count_lineFeed_lt hlt)
    obtain ⟨tokens', htokens', hreport'⟩ := exists_report comments hsize (count_lineFeed_lt h)
    obtain ⟨r, hr, hwritten⟩ := hreport false out err
    obtain ⟨r', hr', hwritten'⟩ := hreport' false out err
    rw [tokenize_of_lt hlt] at htokens
    rw [hlong] at htokens'
    cases htokens
    cases htokens'
    refine ⟨r, r', hr, hr', ?_⟩
    rw [hwritten, hwritten', linesOf_longLineEnds hsize hcr]

theorem tokenize_longLineEnds_string :
    carriageReturn ∉ Utf8.bytesOf "a // é\n\"b\\\nc\n" ∧
      (longLineEnds "a // é\n\"b\\\nc\n").utf8ByteSize < maxOffset ∧
      (∃ tokens, tokenize "a // é\n\"b\\\nc\n" .retain = .ok tokens ∧
        tokenize (longLineEnds "a // é\n\"b\\\nc\n") .retain =
          .ok (tokens.map (Token.mapSpan (longOffset "a // é\n\"b\\\nc\n")))) ∧
      (∀ n, ∃ line?, (Source.ofString "a // é\n\"b\\\nc\n").line? n = .ok line? ∧
        (Source.ofString (longLineEnds "a // é\n\"b\\\nc\n")).line? n = .ok line?) ∧
      ∀ out err, ∃ r r', report "a // é\n\"b\\\nc\n" .retain false out err = .ok r ∧
        report (longLineEnds "a // é\n\"b\\\nc\n") .retain false out err = .ok r' ∧
        r'.toWritten = r.toWritten :=
  ⟨by decide, by decide, tokenize_longLineEnds .retain (by decide) (by decide)⟩

end Text

end Ivy
