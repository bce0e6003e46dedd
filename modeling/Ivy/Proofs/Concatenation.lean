import Ivy.Proofs.TokenLists
import Mathlib.Data.List.Basic

/-!
# Concatenation at a line feed

A line feed separates what stands on its sides.  If the bytes in front of it leave no string open
and do not end with a carriage return, which would make one line end with the line feed, then all
pieces of them are pieces of the whole (`pieces_append_lineFeed`), and the tokens of the whole are
those of both parts (`tokenize_append`).
-/

namespace Ivy

/-! ## Pieces -/

section Pieces

variable {b : UInt8} {l : List UInt8}

theorem head?_append_cons {c x : UInt8} (hc : c ≠ x) (l r : List UInt8) :
    (l ++ c :: r).head? = some x ↔ l.head? = some x := by
  cases l with
  | nil => simp [hc]
  | cons d l => rfl

theorem getLast?_drop_ne {c : UInt8} (h : l.getLast? ≠ some c) (n : Nat) :
    (l.drop n).getLast? ≠ some c := by
  rw [List.getLast?_drop]
  split
  · exact nofun
  · exact h

/-- A piece ends where it did when there was nothing behind the line feed, if it ends at all. -/
theorem pieceFrom_append_lineFeed (ht : Utf8.IsText (b :: l))
    (hlast : (b :: l).getLast? ≠ some carriageReturn)
    (hopen : (pieceFrom b l).form ≠ .defect .unterminatedString) (r : List UInt8) :
    pieceFrom b (l ++ lineFeed :: r) = pieceFrom b l := by
  have hblank : ¬ isBlank lineFeed := by decide
  have hword : ¬ isWordByte lineFeed := by decide
  cases hb : Lead.of b <;> simp only [pieceFrom, hb] at hopen ⊢
  case zero | other =>
    rw [← List.cons_append, List.take_append_of_le_length]
    exact Utf8.IsText.width_le (a := []) ht
  case blank => rw [takeWhile_append_cons hblank]
  case carriageReturn =>
    -- The carriage return is not the last byte, so what is behind it is what was.
    have hfits : Lead.Fits b .carriageReturn := hb ▸ Lead.fits_of b
    cases l with
    | nil => exact absurd (congrArg some hfits) hlast
    | cons c l => rfl
  case pair second joined alone =>
    simp only [head?_append_cons (Lead.second_ne hb).1.symm]
  case slash =>
    simp only [head?_append_cons (show lineFeed ≠ slash by decide)]
    split
    · next h =>
      obtain ⟨l', rfl⟩ := List.head?_eq_some_iff.1 h
      rw [List.cons_append, List.tail_cons, List.tail_cons, restOfLine_append_lineFeed]
      exact getLast?_drop_ne hlast 2
    · rfl
  case quotationMark =>
    unfold stringPiece at hopen ⊢
    cases hw : restOfString? l with
    | none =>
      rw [hw] at hopen
      exact absurd rfl hopen
    | some w => rw [restOfString?_append_right hw]
  case digit => rw [restOfNumber_append_cons (by decide) (by decide)]
  case letter => rw [takeWhile_append_cons hword]

/-- All pieces in front of the line feed are pieces of the whole. -/
theorem pieces_append_lineFeed (ht : Utf8.IsText l) (hlast : l.getLast? ≠ some carriageReturn)
    (hopen : ∀ s ∈ pieces l, s.form ≠ .defect .unterminatedString) (r : List UInt8) :
    pieces (l ++ lineFeed :: r) = pieces l ++ ⟨.gap, [lineFeed]⟩ :: pieces r := by
  fun_induction pieces l with
  | case1 =>
    rw [List.nil_append, pieces_cons]
    rfl
  | case2 b l ih =>
    have hstarts := starts_pieceFrom b l
    obtain ⟨hfirst, hrest⟩ := List.forall_mem_cons.1 hopen
    have hlen : (pieceFrom b l).bytes.length ≤ (b :: l).length := hstarts.isPrefix.length_le
    rw [List.cons_append, pieces_cons, pieceFrom_append_lineFeed ht hlast hfirst,
      ← List.cons_append, List.drop_append_of_le_length hlen, ih _ _ hrest]
    · rfl
    · exact hstarts.isText_drop ht
    · exact getLast?_drop_ne hlast _

end Pieces

/-! ## Tokens -/

theorem Piece.Starts.eq_quotationMark {b : UInt8} {l : List UInt8} {s : Piece} (h : s.Starts b l)
    (hs : s.form = .defect .unterminatedString) : b = quotationMark := by
  cases h with
  | unterminated hb => exact hb
  | _ => cases hs

/-- An open string makes an invalid token that starts with a quotation mark. -/
theorem form_ne_of_tokensOf {comments : CommentMode} {l : List UInt8}
    (h : ∀ t ∈ tokensOf comments 0 1 (pieces l), t.kind = .invalid →
      l[t.start]? ≠ some quotationMark) :
    ∀ s ∈ pieces l, s.form ≠ .defect .unterminatedString := by
  intro s hs hform
  obtain ⟨ps, qs, hps⟩ := List.append_of_mem hs
  obtain ⟨b, rest, hl, rfl, -, -⟩ := pieces_eq_append_cons hps
  have hkind : (pieceFrom b rest).form.kind? comments = some .invalid := by
    rw [hform]
    rfl
  obtain ⟨t, ht, hk, hstart⟩ := mem_tokensOf_append_cons 0 1 ps qs hkind
  rw [← hps] at ht
  apply h t ht hk
  rw [hstart, Nat.zero_add, hl, List.getElem?_append_right (Nat.le_refl _), Nat.sub_self,
    List.getElem?_cons_zero, (starts_pieceFrom b rest).eq_quotationMark hform]

/-- A line end makes no token. -/
theorem tokensOf_lineFeed (comments : CommentMode) (offset line : Nat) (ps : List Piece) :
    tokensOf comments offset line (⟨.gap, [lineFeed]⟩ :: ps) =
      tokensOf comments (offset + 1) (line + 1) ps := rfl

section Text

variable {a b : String}

theorem bytesOf_append_lineFeed (a b : String) :
    Utf8.bytesOf (a ++ "\n" ++ b) = Utf8.bytesOf a ++ lineFeed :: Utf8.bytesOf b := by
  rw [Utf8.bytesOf_append, Utf8.bytesOf_append, List.append_assoc]
  rfl

/-- The tokens of two texts with a line feed between them are those of the one and, further on,
those of the other, unless a string is open in front of the line feed or a carriage return stands
there. -/
theorem tokenize_append {tokens : List Token} (comments : CommentMode)
    (h : (a ++ "\n" ++ b).utf8ByteSize < maxOffset)
    (hlast : (Utf8.bytesOf a).getLast? ≠ some carriageReturn)
    (htokens : tokenize a .retain = .ok tokens)
    (hclosed : ∀ t ∈ tokens, t.kind = .invalid →
      (Utf8.bytesOf a)[t.start]? ≠ some quotationMark) :
    ∃ ts eof us, tokenize a comments = .ok (ts ++ [eof]) ∧ eof.kind = .eof ∧
      (∀ t ∈ ts, t.kind ≠ .eof) ∧ tokenize b comments = .ok us ∧
      tokenize (a ++ "\n" ++ b) comments = .ok (ts ++ us.map
        (Token.shift (a.utf8ByteSize + 1) (1 + (Utf8.bytesOf a).count lineFeed))) := by
  have hsize : a.utf8ByteSize + (b.utf8ByteSize + 1) < maxOffset := by
    have hlen := congrArg List.length (bytesOf_append_lineFeed a b)
    rw [List.length_append, List.length_cons] at hlen
    simp only [Utf8.length_bytesOf] at hlen
    rwa [← hlen]
  have ha : a.utf8ByteSize < maxOffset := by omega
  have hb : b.utf8ByteSize < maxOffset := by omega
  rw [tokenize_of_lt ha] at htokens
  cases htokens
  have hpieces := pieces_append_lineFeed (Utf8.isText_bytesOf a) hlast
    (form_ne_of_tokensOf hclosed) (Utf8.bytesOf b)
  obtain ⟨ts, hts, hne, -⟩ := exists_tokensOf_eq comments 0 1 (Utf8.bytesOf a)
  refine ⟨ts, _, _, (tokenize_of_lt ha).trans (congrArg Except.ok hts), rfl, hne,
    tokenize_of_lt hb, ?_⟩
  rw [tokenize_of_lt h, bytesOf_append_lineFeed, hpieces, tokensOf_append, hts,
    List.dropLast_concat, flatMap_bytes_pieces, tokensOf_lineFeed, ← tokensOf_shift,
    Utf8.length_bytesOf, Nat.add_assoc 0, Nat.add_assoc 1, Nat.add_comm (List.count _ _)]

theorem tokenize_append_comment :
    ("1. // é" ++ "\n" ++ "= \"z").utf8ByteSize < maxOffset ∧
      (Utf8.bytesOf "1. // é").getLast? ≠ some carriageReturn ∧
      tokenize "1. // é" .retain = .ok [⟨.literalNumber, 0, 1, 1⟩, ⟨.dot, 1, 2, 1⟩,
        ⟨.commentLine, 3, 8, 1⟩, ⟨.eof, 8, 8, 1⟩] ∧
      ∃ ts eof us, tokenize "1. // é" .discard = .ok (ts ++ [eof]) ∧ eof.kind = .eof ∧
        (∀ t ∈ ts, t.kind ≠ .eof) ∧ tokenize "= \"z" .discard = .ok us ∧
        tokenize ("1. // é" ++ "\n" ++ "= \"z") .discard = .ok (ts ++ us.map
          (Token.shift ("1. // é".utf8ByteSize + 1)
            (1 + (Utf8.bytesOf "1. // é").count lineFeed))) := by
  have htokens : tokenize "1. // é" .retain = .ok [⟨.literalNumber, 0, 1, 1⟩, ⟨.dot, 1, 2, 1⟩,
      ⟨.commentLine, 3, 8, 1⟩, ⟨.eof, 8, 8, 1⟩] := by decide +kernel
  exact ⟨by decide, by decide, htokens,
    tokenize_append .discard (by decide) (by decide) htokens (by decide)⟩

end Text

end Ivy
