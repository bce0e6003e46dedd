import Ivy.Proofs.Lexemes
import Ivy.Proofs.PieceGrammar

/-!
# Lossless partition

The tokens of a text lie in it one behind the other, with gaps of trivia in front of, between and
behind them (`Tiles`), so the text can be put together again from gaps and lexemes
(`tokenize_partitions`).
-/

namespace Ivy

/-! ## Gaps -/

/-- Whether the bytes `w` in front of `rest` are trivia: blanks and line ends, and, if comments are
discarded, comments up to the ends of their lines. -/
inductive Trivia (comments : CommentMode) (rest : List UInt8) : List UInt8 → Prop
  | nil : Trivia comments rest []
  | blank (b : UInt8) (w : List UInt8) (hb : isBlank b) (hw : Trivia comments rest w) :
    Trivia comments rest (b :: w)
  | lineEnd (w : List UInt8) (hw : Trivia comments rest w) : Trivia comments rest (lineFeed :: w)
  | longLineEnd (w : List UInt8) (hw : Trivia comments rest w) :
    Trivia comments rest (carriageReturn :: lineFeed :: w)
  | comment (v w : List UInt8) (hcomments : comments = .discard) (hv : v ∈ Kind.comments)
    (hstops : CommentStops v (w ++ rest)) (hw : Trivia comments rest w) :
    Trivia comments rest (v ++ w)

theorem Form.kind?_eq_none {form : Form} {comments : CommentMode}
    (h : form.kind? comments = none) :
    form = .gap ∨ form = .token .commentLine ∧ comments = .discard := by
  cases form with
  | gap => exact .inl rfl
  | defect | finish => cases h
  | token kind =>
    rw [Form.kind?] at h
    split at h
    · next hk =>
      rw [Bool.and_eq_true, Kind.isTrivia_iff, beq_iff_eq] at hk
      exact .inr ⟨congrArg Form.token hk.1, hk.2⟩
    · cases h

section Trivia

variable {comments : CommentMode} {b : UInt8} {l w rest : List UInt8} {s : Piece}

theorem Trivia.blanks {v : List UInt8} (hv : ∀ b ∈ v, isBlank b) (hw : Trivia comments rest w) :
    Trivia comments rest (v ++ w) := by
  induction v with
  | nil => exact hw
  | cons b v ih =>
    obtain ⟨hb, hv⟩ := List.forall_mem_cons.1 hv
    exact .blank b _ hb (ih hv)

/-- A piece that becomes no token is trivia. -/
theorem Piece.Starts.trivia (h : s.Starts b l) (ht : Utf8.IsText (b :: l))
    (hk : s.form.kind? comments = none) (hl : (b :: l).drop s.bytes.length = w ++ rest)
    (hw : Trivia comments rest w) : Trivia comments rest (s.bytes ++ w) := by
  rcases Form.kind?_eq_none hk with hs | ⟨hs, hcomments⟩
  · cases h with
    | blanks hb => exact .blanks (List.forall_mem_cons.2 ⟨hb, fun c hc => mem_takeWhile hc⟩) hw
    | lineEnd hb => exact hb ▸ .lineEnd w hw
    | longLineEnd l' hb hl => exact hb ▸ .longLineEnd w hw
    | _ => cases hs
  · exact .comment s.bytes w hcomments (h.mem_language ht hs) (hl ▸ h.comment_stops hs) hw

end Trivia

/-- Whether only trivia stand between two offsets of a text. -/
structure IsGap (comments : CommentMode) (text : String) (start stop : Nat) : Prop where
  start_le : start ≤ stop
  stop_le : stop ≤ text.utf8ByteSize
  isText : Utf8.IsText (bytesBetween text start stop)
  trivia : Trivia comments ((Utf8.bytesOf text).drop stop) (bytesBetween text start stop)

section IsGap

variable {comments : CommentMode} {text : String} {offset stop : Nat} {b : UInt8} {l : List UInt8}

theorem isGap_self (h : offset ≤ text.utf8ByteSize) : IsGap comments text offset offset := by
  have hnil : bytesBetween text offset offset = [] := by
    rw [bytesBetween, Nat.sub_self, List.take_zero]
  exact ⟨Nat.le_refl _, h, hnil ▸ Utf8.isText_nil, hnil ▸ .nil⟩

/-- A piece that becomes no token lengthens the gap behind it. -/
theorem IsGap.extend (hdrop : (Utf8.bytesOf text).drop offset = b :: l)
    (ht : Utf8.IsText (b :: l)) (hk : (pieceFrom b l).form.kind? comments = none)
    (h : IsGap comments text (offset + (pieceFrom b l).bytes.length) stop) :
    IsGap comments text offset stop := by
  have hstarts := starts_pieceFrom b l
  have happend := bytesBetween_append text (Nat.le_add_right offset _) h.start_le
  have hrest := (bytesBetween_append_drop text h.start_le).symm
  rw [bytesBetween_pieceFrom hdrop] at happend
  rw [drop_pieceFrom hdrop] at hrest
  exact
    { start_le := Nat.le_of_add_right_le h.start_le
      stop_le := h.stop_le
      isText := happend ▸ (hstarts.isText ht).append h.isText
      trivia := happend ▸ hstarts.trivia ht hk hrest h.trivia }

end IsGap

/-! ## Tilings -/

/-- Whether a token takes up part of a text. -/
structure Token.IsPart (t : Token) (text : String) : Prop where
  kind_ne : t.kind ≠ .eof
  start_lt : t.start < t.stop
  stop_le : t.stop ≤ text.utf8ByteSize
  isText : Utf8.IsText (bytesBetween text t.start t.stop)

/-- Whether tokens and gaps make up a text from the offset `start` on. -/
inductive Tiles (comments : CommentMode) (text : String) : Nat → List Token → Prop
  | nil (start : Nat) (hgap : IsGap comments text start text.utf8ByteSize) :
    Tiles comments text start []
  | cons (start : Nat) (t : Token) (ts : List Token) (hgap : IsGap comments text start t.start)
    (ht : t.IsPart text) (hts : Tiles comments text t.stop ts) : Tiles comments text start (t :: ts)

section Tiles

variable {comments : CommentMode} {text : String} {offset line : Nat}

theorem Tiles.extend {b : UInt8} {l : List UInt8} {ts : List Token}
    (hdrop : (Utf8.bytesOf text).drop offset = b :: l) (ht : Utf8.IsText (b :: l))
    (hk : (pieceFrom b l).form.kind? comments = none)
    (h : Tiles comments text (offset + (pieceFrom b l).bytes.length) ts) :
    Tiles comments text offset ts := by
  cases h with
  | nil _ hgap => exact .nil offset (hgap.extend hdrop ht hk)
  | cons _ t ts hgap hpart hts => exact .cons offset t ts (hgap.extend hdrop ht hk) hpart hts

/-- The tokens of what is left of a text tile it, and the end mark stands at the end. -/
theorem tiles_tokensOf {l : List UInt8} (hdrop : (Utf8.bytesOf text).drop offset = l)
    (hle : offset ≤ text.utf8ByteSize) (ht : Utf8.IsText l) :
    ∃ ts, tokensOf comments offset line (pieces l) =
        ts ++ [⟨.eof, text.utf8ByteSize, text.utf8ByteSize, line + l.count lineFeed⟩] ∧
      Tiles comments text offset ts := by
  fun_induction pieces l generalizing offset line with
  | case1 =>
    have hlen := congrArg List.length hdrop
    rw [List.length_drop, Utf8.length_bytesOf, List.length_nil] at hlen
    have heq : offset = text.utf8ByteSize := by omega
    rw [heq]
    exact ⟨[], rfl, .nil _ (isGap_self (Nat.le_refl _))⟩
  | case2 b l ih =>
    have hstarts := starts_pieceFrom b l
    have htext := hstarts.isText ht
    have hsplit := hstarts.bytes_append_drop
    obtain ⟨ts, hts, htiles⟩ := @ih _ (line + (pieceFrom b l).bytes.count lineFeed)
      (drop_pieceFrom hdrop) (add_length_pieceFrom_le hdrop) ((hsplit ▸ ht).of_append htext)
    rw [Nat.add_assoc, ← List.count_append, hsplit] at hts
    rw [tokensOf, hts]
    cases hk : (pieceFrom b l).form.kind? comments with
    | none => exact ⟨ts, rfl, htiles.extend hdrop ht hk⟩
    | some k =>
      refine ⟨_ :: ts, rfl, .cons _ _ _ (isGap_self hle) ?_ htiles⟩
      exact
        { kind_ne := fun heof => hstarts.kind?_ne_eof comments (heof ▸ hk)
          start_lt := Nat.lt_add_of_pos_right hstarts.length_pos
          stop_le := add_length_pieceFrom_le hdrop
          isText := (bytesBetween_pieceFrom hdrop).symm ▸ htext }

end Tiles

/-! ## What a tiling tells -/

/-- The gaps in front of, between and behind tokens from `start` up to `stop`. -/
def gaps (stop : Nat) : Nat → List Token → List (Nat × Nat)
  | start, [] => [(start, stop)]
  | start, t :: ts => (start, t.start) :: gaps stop t.stop ts

/-- The text from `start` on, put together from gaps and lexemes. -/
def Source.interleave (src : Source) : Nat → List Token → String
  | start, [] => src.text start src.length
  | start, t :: ts => src.text start t.start ++ src.lexeme t ++ src.interleave t.stop ts

namespace Tiles

variable {comments : CommentMode} {text : String} {offset : Nat} {ts : List Token}

theorem isPart (h : Tiles comments text offset ts) : ∀ t ∈ ts, t.IsPart text := by
  induction h with
  | nil => exact nofun
  | cons start t ts _ ht _ ih => exact List.forall_mem_cons.2 ⟨ht, ih⟩

theorem le_start (h : Tiles comments text offset ts) : ∀ t ∈ ts, offset ≤ t.start := by
  induction h with
  | nil => exact nofun
  | cons start t ts hgap ht _ ih =>
    refine List.forall_mem_cons.2 ⟨hgap.start_le, fun t' ht' => ?_⟩
    have := hgap.start_le
    have := ht.start_lt
    have := ih t' ht'
    omega

/-- No token starts before the end of one in front of it. -/
theorem pairwise (h : Tiles comments text offset ts) : ts.Pairwise (·.stop ≤ ·.start) := by
  induction h with
  | nil => exact .nil
  | cons start t ts _ _ hts ih => exact .cons hts.le_start ih

theorem isGap (h : Tiles comments text offset ts) :
    ∀ g ∈ gaps text.utf8ByteSize offset ts, IsGap comments text g.1 g.2 := by
  induction h with
  | nil start hgap =>
    intro g hg
    rw [gaps, List.mem_singleton] at hg
    exact hg ▸ hgap
  | cons start t ts hgap _ _ ih => exact List.forall_mem_cons.2 ⟨hgap, ih⟩

/-- Each token takes up a byte. -/
theorem length_add_le (h : Tiles comments text offset ts) :
    ts.length + offset ≤ text.utf8ByteSize := by
  induction h with
  | nil start hgap =>
    rw [List.length_nil, Nat.zero_add]
    exact hgap.start_le
  | cons start t ts hgap ht _ ih =>
    have := hgap.start_le
    have := ht.start_lt
    rw [List.length_cons]
    omega

theorem bytesOf_interleave (h : Tiles comments text offset ts)
    (hsize : text.utf8ByteSize ≤ maxOffset) :
    Utf8.bytesOf ((Source.ofString text).interleave offset ts) =
      (Utf8.bytesOf text).drop offset := by
  have hspan {start stop : Nat} (hle : start ≤ stop) (hstop : stop ≤ text.utf8ByteSize)
      (ht : Utf8.IsText (bytesBetween text start stop)) :
      Utf8.bytesOf ((Source.ofString text).text start stop) = bytesBetween text start stop := by
    rw [text_ofString hsize hle hstop, ht.bytesOf_textOf]
  induction h with
  | nil start hgap =>
    rw [Source.interleave, Source.length_ofString hsize,
      hspan hgap.start_le (Nat.le_refl _) hgap.isText,
      ← bytesBetween_append_drop text hgap.start_le, List.drop_eq_nil_of_le, List.append_nil]
    rw [Utf8.length_bytesOf]
  | cons start t ts hgap ht hts ih =>
    have hle := Nat.le_of_lt ht.start_lt
    rw [Source.interleave, Source.lexeme, Utf8.bytesOf_append, Utf8.bytesOf_append, ih,
      hspan hgap.start_le hgap.stop_le hgap.isText, hspan hle ht.stop_le ht.isText,
      bytesBetween_append text hgap.start_le hle,
      bytesBetween_append_drop text (Nat.le_trans hgap.start_le hle)]

/-- Gaps and lexemes make up the text. -/
theorem interleave_eq (h : Tiles comments text 0 ts) (hsize : text.utf8ByteSize ≤ maxOffset) :
    (Source.ofString text).interleave 0 ts = text := by
  have hbytes := h.bytesOf_interleave hsize
  rw [List.drop_zero] at hbytes
  exact Utf8.bytesOf_inj.1 hbytes

end Tiles

/-! ## Tokens of a text -/

/-- Whether tokens and an end mark partition a text without loss. -/
structure Partitions (comments : CommentMode) (text : String) (tokens : List Token)
    (eof : Token) : Prop where
  eof_kind : eof.kind = .eof
  eof_start : eof.start = text.utf8ByteSize
  eof_stop : eof.stop = text.utf8ByteSize
  kind_ne : ∀ t ∈ tokens, t.kind ≠ .eof
  start_lt : ∀ t ∈ tokens, t.start < t.stop
  stop_le : ∀ t ∈ tokens, t.stop ≤ text.utf8ByteSize
  ordered : tokens.Pairwise (·.stop ≤ ·.start)
  isGap : ∀ g ∈ gaps text.utf8ByteSize 0 tokens, IsGap comments text g.1 g.2
  interleave_eq : (Source.ofString text).interleave 0 tokens = text
  length_le : (tokens ++ [eof]).length ≤ text.utf8ByteSize + 1

/-- The tokens of a text partition it. -/
theorem tokenize_partitions {text : String} (comments : CommentMode)
    (h : text.utf8ByteSize < maxOffset) : ∃ tokens eof,
      tokenize text comments = .ok (tokens ++ [eof]) ∧ Partitions comments text tokens eof := by
  have hsize := Nat.le_of_lt h
  have hdrop : (Utf8.bytesOf text).drop 0 = Utf8.bytesOf text := List.drop_zero
  obtain ⟨ts, hts, htiles⟩ := tiles_tokensOf hdrop (Nat.zero_le _) (Utf8.isText_bytesOf text)
  refine ⟨ts, _, (tokenize_eq hsize (count_lineFeed_lt h)).trans (congrArg Except.ok hts), ?_⟩
  exact
    { eof_kind := rfl
      eof_start := rfl
      eof_stop := rfl
      kind_ne := fun t ht => (htiles.isPart t ht).kind_ne
      start_lt := fun t ht => (htiles.isPart t ht).start_lt
      stop_le := fun t ht => (htiles.isPart t ht).stop_le
      ordered := htiles.pairwise
      isGap := htiles.isGap
      interleave_eq := htiles.interleave_eq hsize
      length_le := by
        rw [List.length_append]
        exact Nat.succ_le_succ htiles.length_add_le }

theorem tokenize_partitions_discard : "x // y\n\"z".utf8ByteSize < maxOffset ∧
    ∃ tokens eof, tokenize "x // y\n\"z" .discard = .ok (tokens ++ [eof]) ∧
      Partitions .discard "x // y\n\"z" tokens eof :=
  ⟨by decide, tokenize_partitions .discard (by decide)⟩

end Ivy
