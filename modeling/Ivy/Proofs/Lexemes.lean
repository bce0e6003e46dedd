import Ivy.Proofs.PieceStream

/-!
# The bytes of a token

`bytesBetween text start stop` are the bytes of a text from one offset to another.  If a text is cut
in front of what a token heads, they are the bytes of its piece (`Token.Heads.bytesBetween_eq`), and
the lexeme of the token is the text that they spell (`Token.Heads.lexeme_eq`).
-/

namespace Ivy

/-- The bytes of `text` from offset `start` to offset `stop`. -/
def bytesBetween (text : String) (start stop : Nat) : List UInt8 :=
  ((Utf8.bytesOf text).drop start).take (stop - start)

theorem text_ofString {text : String} {start stop : Nat} (h : text.utf8ByteSize ≤ maxOffset)
    (hstart : start ≤ stop) (hstop : stop ≤ text.utf8ByteSize) :
    (Source.ofString text).text start stop =
      Utf8.textOf (bytesBetween text start stop).toByteArray := by
  rw [← Source.length_ofString h] at hstop
  rw [Source.text, if_pos ⟨hstart, hstop⟩, (Source.wellLaid_ofString h).extract_eq hstop,
    Source.content_ofString h]
  rfl

theorem length_bytesBetween {text : String} {start stop : Nat} (h : stop ≤ text.utf8ByteSize) :
    (bytesBetween text start stop).length = stop - start := by
  rw [bytesBetween, List.length_take, List.length_drop, Utf8.length_bytesOf]
  omega

theorem bytesBetween_append {start mid stop : Nat} (text : String) (h₁ : start ≤ mid)
    (h₂ : mid ≤ stop) :
    bytesBetween text start mid ++ bytesBetween text mid stop = bytesBetween text start stop := by
  have hlen : stop - start = (mid - start) + (stop - mid) := by omega
  rw [bytesBetween, bytesBetween, bytesBetween, hlen, List.take_add, List.drop_drop,
    Nat.add_sub_cancel' h₁]

theorem bytesBetween_append_drop {start stop : Nat} (text : String) (h : start ≤ stop) :
    bytesBetween text start stop ++ (Utf8.bytesOf text).drop stop =
      (Utf8.bytesOf text).drop start := by
  have hdrop := List.drop_drop (i := stop - start) (j := start) (l := Utf8.bytesOf text)
  rw [Nat.add_sub_cancel' h] at hdrop
  rw [bytesBetween, ← hdrop, List.take_append_drop]

/-! ## Pieces of a text -/

section Pieces

variable {text : String} {offset : Nat} {b : UInt8} {l : List UInt8}

/-- The piece where what is left of a text starts. -/
theorem bytesBetween_pieceFrom (hdrop : (Utf8.bytesOf text).drop offset = b :: l) :
    bytesBetween text offset (offset + (pieceFrom b l).bytes.length) = (pieceFrom b l).bytes := by
  rw [bytesBetween, hdrop, Nat.add_sub_cancel_left]
  exact (List.prefix_iff_eq_take.1 (starts_pieceFrom b l).isPrefix).symm

theorem drop_pieceFrom (hdrop : (Utf8.bytesOf text).drop offset = b :: l) :
    (Utf8.bytesOf text).drop (offset + (pieceFrom b l).bytes.length) =
      (b :: l).drop (pieceFrom b l).bytes.length := by
  rw [← List.drop_drop, hdrop]

theorem add_length_pieceFrom_le (hdrop : (Utf8.bytesOf text).drop offset = b :: l) :
    offset + (pieceFrom b l).bytes.length ≤ text.utf8ByteSize := by
  have hle := (starts_pieceFrom b l).isPrefix.length_le
  have hpos := (starts_pieceFrom b l).length_pos
  rw [← hdrop, List.length_drop, Utf8.length_bytesOf] at hle
  omega

end Pieces

/-! ## Tokens of a text -/

namespace Token.Heads

variable {text : String} {comments : CommentMode} {b : UInt8} {rest : List UInt8} {t : Token}

theorem kind_ne_eof (h : t.Heads comments (Utf8.bytesOf text) b rest) : t.kind ≠ .eof := by
  intro heof
  exact (starts_pieceFrom b rest).kind?_ne_eof comments (heof ▸ h.kind?_eq)

theorem start_lt (h : t.Heads comments (Utf8.bytesOf text) b rest) : t.start < t.stop := by
  rw [h.stop_eq]
  exact Nat.lt_add_of_pos_right (starts_pieceFrom b rest).length_pos

theorem stop_le (h : t.Heads comments (Utf8.bytesOf text) b rest) :
    t.stop ≤ text.utf8ByteSize := by
  rw [h.stop_eq]
  exact add_length_pieceFrom_le h.drop_eq

theorem getElem?_start (h : t.Heads comments (Utf8.bytesOf text) b rest) :
    (Utf8.bytesOf text)[t.start]? = some b := by
  rw [← List.head?_drop, h.drop_eq, List.head?_cons]

theorem drop_start_succ (h : t.Heads comments (Utf8.bytesOf text) b rest) :
    (Utf8.bytesOf text).drop (t.start + 1) = rest := by
  rw [← List.drop_drop, h.drop_eq, List.drop_one, List.tail_cons]

theorem start_add_length (h : t.Heads comments (Utf8.bytesOf text) b rest) :
    t.start + (b :: rest).length = text.utf8ByteSize := by
  have hle := h.stop_le
  have hlt := h.start_lt
  rw [← h.drop_eq, List.length_drop, Utf8.length_bytesOf]
  omega

theorem bytesBetween_eq (h : t.Heads comments (Utf8.bytesOf text) b rest) :
    bytesBetween text t.start t.stop = (pieceFrom b rest).bytes := by
  rw [h.stop_eq]
  exact bytesBetween_pieceFrom h.drop_eq

theorem drop_stop (h : t.Heads comments (Utf8.bytesOf text) b rest) :
    (Utf8.bytesOf text).drop t.stop = (b :: rest).drop (pieceFrom b rest).bytes.length := by
  rw [h.stop_eq]
  exact drop_pieceFrom h.drop_eq

/-- The bytes from the start of the token on, up to any offset. -/
theorem bytesBetween_isPrefix (h : t.Heads comments (Utf8.bytesOf text) b rest) (stop : Nat) :
    bytesBetween text t.start stop <+: b :: rest := by
  rw [bytesBetween, h.drop_eq]
  exact List.take_prefix _ _

/-- The lexeme of a token spells the bytes of its piece. -/
theorem lexeme_eq (h : t.Heads comments (Utf8.bytesOf text) b rest)
    (hsize : text.utf8ByteSize ≤ maxOffset) :
    (Source.ofString text).lexeme t = Utf8.textOf (pieceFrom b rest).bytes.toByteArray := by
  rw [Source.lexeme, text_ofString hsize (Nat.le_of_lt h.start_lt) h.stop_le, h.bytesBetween_eq]

theorem bytesOf_lexeme (h : t.Heads comments (Utf8.bytesOf text) b rest)
    (hsize : text.utf8ByteSize ≤ maxOffset) :
    Utf8.bytesOf ((Source.ofString text).lexeme t) = (pieceFrom b rest).bytes := by
  rw [h.lexeme_eq hsize, ((starts_pieceFrom b rest).isText h.isText).bytesOf_textOf]

/-- A token that is not the end mark has a lexeme that is not empty. -/
theorem lexeme_ne (h : t.Heads comments (Utf8.bytesOf text) b rest)
    (hsize : text.utf8ByteSize ≤ maxOffset) : (Source.ofString text).lexeme t ≠ "" := by
  intro hempty
  have hbytes := h.bytesOf_lexeme hsize
  have hpos := (starts_pieceFrom b rest).length_pos
  rw [← hbytes, hempty] at hpos
  exact absurd hpos (by decide)

end Token.Heads

end Ivy
