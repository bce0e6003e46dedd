import Ivy.Proofs.Leads
import Ivy.Proofs.Rests
import Ivy.Token.Recognition

/-!
# Pieces of a text

A second account of how a text is cut up, on lists of bytes, without positions, buffers or faults.
`firstPiece l` is the first piece of the bytes `l`: a gap, a token or a defect, with its bytes.
`pieces l` cuts `l` into pieces one after the other.  No byte is lost (`flatMap_bytes_pieces`), and
cutting goes on behind a run of pieces as if the text began there (`pieces_eq_append`).
-/

namespace Ivy

/-- A piece of a text. -/
structure Piece where
  form : Form
  bytes : List UInt8
deriving DecidableEq

/-! ## The first piece -/

/-- The kind of the word `w`. -/
def wordKind (w : List UInt8) : Kind :=
  (Kind.ofKeyword? (Utf8.textOf w.toByteArray)).getD .identifier

/-- What the bytes `l` behind a quotation mark make of it. -/
def stringPiece (l : List UInt8) : Piece :=
  match restOfString? l with
  | some w => ⟨.token .literalString, w⟩
  | none => ⟨.defect .unterminatedString, l⟩

/-- The first piece of the bytes `b :: l`. -/
def pieceFrom (b : UInt8) (l : List UInt8) : Piece :=
  match Lead.of b with
  | .zero | .other => ⟨.defect .unexpectedCharacter, (b :: l).take (Utf8.width b)⟩
  | .blank => ⟨.gap, b :: l.takeWhile isBlank⟩
  | .lineFeed => ⟨.gap, [b]⟩
  | .carriageReturn =>
    if l.head? = some lineFeed then ⟨.gap, [b, lineFeed]⟩ else ⟨.defect .bareCarriageReturn, [b]⟩
  | .single kind => ⟨.token kind, [b]⟩
  | .pair second joined alone =>
    if l.head? = some second then ⟨.token joined, [b, second]⟩ else ⟨.token alone, [b]⟩
  | .slash =>
    if l.head? = some slash then ⟨.token .commentLine, b :: slash :: restOfLine l.tail⟩
    else ⟨.token .slashForward, [b]⟩
  | .quotationMark => ⟨(stringPiece l).form, b :: (stringPiece l).bytes⟩
  | .digit => ⟨.token .literalNumber, b :: restOfNumber l⟩
  | .letter =>
    let word := b :: l.takeWhile isWordByte
    ⟨.token (wordKind word), word⟩

theorem pieceFrom_quotationMark (l : List UInt8) : pieceFrom quotationMark l =
    ⟨(stringPiece l).form, quotationMark :: (stringPiece l).bytes⟩ := by
  have hlead : Lead.of quotationMark = .quotationMark := by decide
  rw [pieceFrom, hlead]

theorem pieceFrom_of_isDigit {b : UInt8} (hb : isDigit b) (l : List UInt8) :
    pieceFrom b l = ⟨.token .literalNumber, b :: restOfNumber l⟩ := by
  have hlead : Lead.of b = .digit := (Lead.of_eq_iff (by decide)).2 hb
  rw [pieceFrom, hlead]

theorem pieceFrom_of_isLetter {b : UInt8} (hb : isLetter b) (l : List UInt8) : pieceFrom b l =
    ⟨.token (wordKind (b :: l.takeWhile isWordByte)), b :: l.takeWhile isWordByte⟩ := by
  have hlead : Lead.of b = .letter := (Lead.of_eq_iff (by decide)).2 hb
  rw [pieceFrom, hlead]

/-- The first piece of the bytes `l`. -/
def firstPiece : List UInt8 → Piece
  | [] => ⟨.finish, []⟩
  | b :: l => pieceFrom b l

/-- Whether the bytes `b :: l` start with the piece. -/
inductive Piece.Starts (b : UInt8) (l : List UInt8) : Piece → Prop
  | unexpected (hb : Lead.of b = .zero ∨ Lead.of b = .other) :
    Starts b l ⟨.defect .unexpectedCharacter, (b :: l).take (Utf8.width b)⟩
  | blanks (hb : isBlank b) : Starts b l ⟨.gap, b :: l.takeWhile isBlank⟩
  | lineEnd (hb : b = lineFeed) : Starts b l ⟨.gap, [b]⟩
  | longLineEnd (l' : List UInt8) (hb : b = carriageReturn) (hl : l = lineFeed :: l') :
    Starts b l ⟨.gap, [b, lineFeed]⟩
  | bareCarriageReturn (hb : b = carriageReturn) (hl : l.head? ≠ some lineFeed) :
    Starts b l ⟨.defect .bareCarriageReturn, [b]⟩
  | single (kind : Kind) (hb : (b, kind) ∈ singles) : Starts b l ⟨.token kind, [b]⟩
  | joined (second : UInt8) (kind alone : Kind) (l' : List UInt8)
    (hb : (b, second, kind, alone) ∈ pairs) (hl : l = second :: l') :
    Starts b l ⟨.token kind, [b, second]⟩
  | alone (second : UInt8) (joined kind : Kind) (hb : (b, second, joined, kind) ∈ pairs)
    (hl : l.head? ≠ some second) : Starts b l ⟨.token kind, [b]⟩
  | comment (l' : List UInt8) (hb : b = slash) (hl : l = slash :: l') :
    Starts b l ⟨.token .commentLine, b :: slash :: restOfLine l'⟩
  | slashForward (hb : b = slash) (hl : l.head? ≠ some slash) :
    Starts b l ⟨.token .slashForward, [b]⟩
  | string (w : List UInt8) (hb : b = quotationMark) (hw : restOfString? l = some w) :
    Starts b l ⟨.token .literalString, b :: w⟩
  | unterminated (hb : b = quotationMark) (hl : restOfString? l = none) :
    Starts b l ⟨.defect .unterminatedString, b :: l⟩
  | number (hb : isDigit b) : Starts b l ⟨.token .literalNumber, b :: restOfNumber l⟩
  | word (hb : isLetter b) : Starts b l
    ⟨.token (wordKind (b :: l.takeWhile isWordByte)), b :: l.takeWhile isWordByte⟩

/-- Whether a comment of the bytes `w` may stop in front of `rest`: at the end of the source, or
where its line ends, with the carriage return of the line end left out. -/
inductive CommentStops (w : List UInt8) : List UInt8 → Prop
  | atEnd : CommentStops w []
  | beforeLineFeed (rest : List UInt8) (hw : w.getLast? ≠ some carriageReturn) :
    CommentStops w (lineFeed :: rest)
  | beforeLongLineEnd (rest : List UInt8) : CommentStops w (carriageReturn :: lineFeed :: rest)

theorem starts_pieceFrom (b : UInt8) (l : List UInt8) : (pieceFrom b l).Starts b l := by
  have hfits := Lead.fits_of b
  cases hb : Lead.of b <;> rw [hb] at hfits <;> simp only [pieceFrom, hb]
  case zero => exact .unexpected (.inl hb)
  case other => exact .unexpected (.inr hb)
  case blank => exact .blanks hfits
  case lineFeed => exact .lineEnd hfits
  case carriageReturn =>
    split
    · next h =>
      obtain ⟨l', hl'⟩ := List.head?_eq_some_iff.1 h
      exact .longLineEnd l' hfits hl'
    · next h => exact .bareCarriageReturn hfits h
  case single kind => exact .single kind hfits
  case pair second joined alone =>
    split
    · next h =>
      obtain ⟨l', hl'⟩ := List.head?_eq_some_iff.1 h
      exact .joined second joined alone l' hfits hl'
    · next h => exact .alone second joined alone hfits h
  case slash =>
    split
    · next h =>
      obtain ⟨l', rfl⟩ := List.head?_eq_some_iff.1 h
      exact .comment l' hfits rfl
    · next h => exact .slashForward hfits h
  case quotationMark =>
    unfold stringPiece
    split
    · next w h => exact .string w hfits h
    · next h => exact .unterminated hfits h
  case digit => exact .number hfits
  case letter => exact .word hfits

/-- A word is an identifier or a keyword. -/
theorem wordKind_cases (w : List UInt8) : wordKind w = .identifier ∨ (wordKind w).isKeyword := by
  unfold wordKind
  cases h : Kind.ofKeyword? (Utf8.textOf w.toByteArray) with
  | none => exact .inl rfl
  | some k => exact .inr (Kind.ofKeyword?_eq_some_iff.1 h).1

/-- The kinds that are never those of a word. -/
theorem wordKind_ne {k : Kind} (hk : k ≠ .identifier) (hkey : k.isKeyword = false)
    (w : List UInt8) : wordKind w ≠ k := by
  rintro rfl
  rcases wordKind_cases w with h | h
  · exact hk h
  · exact Bool.false_ne_true (hkey.symm.trans h)

namespace Piece.Starts

variable {b : UInt8} {l : List UInt8} {s : Piece}

theorem isPrefix (h : s.Starts b l) : s.bytes <+: b :: l := by
  have cons {w : List UInt8} (hw : w <+: l) : b :: w <+: b :: l := (List.prefix_cons_inj b).2 hw
  have single : [b] <+: b :: l := cons List.nil_prefix
  cases h with
  | unexpected => exact List.take_prefix _ _
  | lineEnd | bareCarriageReturn | single | alone | slashForward => exact single
  | longLineEnd l' _ hl | joined _ _ _ l' _ hl =>
    exact cons (hl ▸ (List.prefix_cons_inj _).2 List.nil_prefix)
  | comment l' _ hl => exact cons (hl ▸ (List.prefix_cons_inj _).2 (restOfLine_isPrefix l'))
  | string w _ hw => exact cons (restOfString?_isPrefix hw)
  | unterminated => exact List.prefix_refl _
  | number => exact cons (restOfNumber_isPrefix l)
  | blanks | word => exact cons (List.takeWhile_prefix _)

theorem bytes_append_drop (h : s.Starts b l) : s.bytes ++ (b :: l).drop s.bytes.length = b :: l :=
  List.prefix_iff_eq_append.1 h.isPrefix

/-- A piece has at least one byte. -/
theorem length_pos (h : s.Starts b l) : 0 < s.bytes.length := by
  cases h with
  | unexpected =>
    have := Utf8.width_pos b
    rw [List.length_take, List.length_cons]
    omega
  | _ => exact Nat.succ_pos _

/-- A piece is not the end of the source, nor a token that marks it. -/
theorem form_ne (h : s.Starts b l) : s.form ≠ .finish ∧ s.form ≠ .token .eof := by
  cases h with
  | single kind hb =>
    have := (by decide : ∀ x ∈ singles, Form.token x.2 ≠ .token .eof) _ hb
    exact ⟨nofun, this⟩
  | joined second kind alone l' hb _ =>
    have := (by decide : ∀ x ∈ pairs, Form.token x.2.2.1 ≠ .token .eof) _ hb
    exact ⟨nofun, this⟩
  | alone second joined kind hb _ =>
    have := (by decide : ∀ x ∈ pairs, Form.token x.2.2.2 ≠ .token .eof) _ hb
    exact ⟨nofun, this⟩
  | word => exact ⟨nofun, fun h => wordKind_ne (by decide) (by decide) _ (Form.token.inj h)⟩
  | _ => exact ⟨nofun, nofun⟩

/-- A text is cut up between its characters. -/
theorem isText (h : s.Starts b l) (ht : Utf8.IsText (b :: l)) : Utf8.IsText s.bytes := by
  have single {b : UInt8} (hb : b < 0x80) : Utf8.IsText [b] := Utf8.isText_cons hb Utf8.isText_nil
  cases h with
  | unexpected =>
    obtain ⟨c, rest, hc, -, hw⟩ := ht.cons
    show Utf8.IsText ((b :: l).take (Utf8.width b))
    rw [hw, hc, List.take_left]
    exact Utf8.isText_encodeChar c
  | blanks hb =>
    exact Utf8.isText_of_ascii (List.forall_mem_cons.2
      ⟨lt_of_isBlank hb, fun c hc => lt_of_isBlank (mem_takeWhile hc)⟩)
  | lineEnd hb | bareCarriageReturn hb | slashForward hb => exact single (by rw [hb]; decide)
  | longLineEnd l' hb => exact Utf8.isText_cons (by rw [hb]; decide) (single (by decide))
  | single kind hb => exact single ((by decide : ∀ x ∈ singles, x.1 < 0x80) _ hb)
  | joined second kind alone l' hb =>
    obtain ⟨hfirst, hsecond⟩ := (by decide : ∀ x ∈ pairs, x.1 < 0x80 ∧ x.2.1 < 0x80) _ hb
    exact Utf8.isText_cons hfirst (single hsecond)
  | alone second joined kind hb => exact single ((by decide : ∀ x ∈ pairs, x.1 < 0x80) _ hb)
  | comment l' hb hl =>
    subst hb hl
    have hrest := isText_restOfLine ((ht.tail (by decide)).tail (by decide))
    exact Utf8.isText_cons (by decide) (Utf8.isText_cons (by decide) hrest)
  | string w hb hw =>
    subst hb
    exact Utf8.isText_cons (by decide) (isText_restOfString? (ht.tail (by decide)) hw)
  | unterminated => exact ht
  | number hb =>
    have hdigit {c : UInt8} (hc : isDigit c) : c < 0x80 :=
      lt_of_isWordByte (isWordByte_of_isDigit hc)
    refine Utf8.isText_of_ascii (List.forall_mem_cons.2 ⟨hdigit hb, fun c hc => ?_⟩)
    rcases mem_restOfNumber hc with hc | rfl
    · exact hdigit hc
    · decide
  | word hb =>
    exact Utf8.isText_of_ascii (List.forall_mem_cons.2
      ⟨lt_of_isWordByte (isWordByte_of_isLetter hb),
        fun c hc => lt_of_isWordByte (mem_takeWhile hc)⟩)

theorem isText_drop (h : s.Starts b l) (ht : Utf8.IsText (b :: l)) :
    Utf8.IsText ((b :: l).drop s.bytes.length) := by
  have hpiece := h.isText ht
  rw [← h.bytes_append_drop] at ht
  exact ht.of_append hpiece

/-- A comment stops where its line ends. -/
theorem comment_stops (h : s.Starts b l) (hs : s.form = .token .commentLine) :
    CommentStops s.bytes ((b :: l).drop s.bytes.length) := by
  cases h with
  | comment l' hb hl =>
    rw [hb, hl]
    show CommentStops (slash :: slash :: restOfLine l') (l'.drop (restOfLine l').length)
    have hend := atLineEnd_drop l'
    cases hr : l'.drop (restOfLine l').length with
    | nil => exact .atEnd
    | cons c r =>
      rw [hr] at hend
      rcases atLineEnd_cons_iff.1 hend with rfl | ⟨rfl, hhead⟩
      · apply CommentStops.beforeLineFeed r
        have hlast := getLast?_restOfLine_ne hr
        cases hw : restOfLine l' with
        | nil => decide
        | cons d w => rwa [hw] at hlast
      · obtain ⟨r, rfl⟩ := List.head?_eq_some_iff.1 hhead
        exact .beforeLongLineEnd r
  | single kind hb => exact absurd hs ((by decide : ∀ x ∈ singles, Form.token x.2 ≠ _) _ hb)
  | joined second kind alone l' hb =>
    exact absurd hs ((by decide : ∀ x ∈ pairs, Form.token x.2.2.1 ≠ _) _ hb)
  | alone second joined kind hb =>
    exact absurd hs ((by decide : ∀ x ∈ pairs, Form.token x.2.2.2 ≠ _) _ hb)
  | word => exact absurd (Form.token.inj hs) (wordKind_ne (by decide) (by decide) _)
  | _ => cases hs

end Piece.Starts

/-! ## All pieces -/

/-- All pieces of the bytes `l`. -/
def pieces : List UInt8 → List Piece
  | [] => []
  | b :: l => pieceFrom b l :: pieces ((b :: l).drop (pieceFrom b l).bytes.length)
termination_by l => l.length
decreasing_by
  have := (starts_pieceFrom b l).length_pos
  rw [List.length_drop, List.length_cons]
  omega

@[simp] theorem pieces_nil : pieces [] = [] := by rw [pieces]

theorem pieces_cons (b : UInt8) (l : List UInt8) : pieces (b :: l) =
    pieceFrom b l :: pieces ((b :: l).drop (pieceFrom b l).bytes.length) := by rw [pieces]

/-- Pieces lose no byte. -/
theorem flatMap_bytes_pieces (l : List UInt8) : (pieces l).flatMap Piece.bytes = l := by
  fun_induction pieces l with
  | case1 => rfl
  | case2 b l ih => rw [List.flatMap_cons, ih, (starts_pieceFrom b l).bytes_append_drop]

/-- Behind a run of pieces a text is cut up as if it began there. -/
theorem pieces_eq_append {l : List UInt8} {ps qs : List Piece} (h : pieces l = ps ++ qs) :
    ∃ rest, l = ps.flatMap Piece.bytes ++ rest ∧ pieces rest = qs ∧
      (Utf8.IsText l → Utf8.IsText rest) := by
  induction ps generalizing l with
  | nil => exact ⟨l, rfl, h, id⟩
  | cons s ps ih =>
    cases l with
    | nil => simp at h
    | cons b l =>
      rw [pieces_cons, List.cons_append, List.cons.injEq] at h
      obtain ⟨rfl, h⟩ := h
      have hstarts := starts_pieceFrom b l
      obtain ⟨rest, hrest, hqs, htext⟩ := ih h
      refine ⟨rest, ?_, hqs, fun ht => htext (hstarts.isText_drop ht)⟩
      rw [List.flatMap_cons, List.append_assoc, ← hrest, hstarts.bytes_append_drop]

/-- A piece is the first piece of what is left where it starts. -/
theorem pieces_eq_append_cons {l : List UInt8} {ps qs : List Piece} {s : Piece}
    (h : pieces l = ps ++ s :: qs) : ∃ b rest,
      l = ps.flatMap Piece.bytes ++ b :: rest ∧ s = pieceFrom b rest ∧
        pieces ((b :: rest).drop s.bytes.length) = qs ∧
        (Utf8.IsText l → Utf8.IsText (b :: rest)) := by
  obtain ⟨rest, hl, hrest, htext⟩ := pieces_eq_append h
  cases rest with
  | nil => simp at hrest
  | cons b rest =>
    rw [pieces_cons, List.cons.injEq] at hrest
    obtain ⟨rfl, hqs⟩ := hrest
    exact ⟨b, rest, hl, rfl, hqs, htext⟩

end Ivy
