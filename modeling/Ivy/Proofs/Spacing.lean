import Ivy.Proofs.Lexemes
import Ivy.Proofs.TokenLists

/-!
# Spacing

The lexemes of a text without errors may be written down with any spacing: spaces, tabs and line
ends, at least one between two lexemes.  The text that this makes has the same kinds with the same
lexemes (`tokenize_spaceOut`).

The proof goes by the words of a text, the kinds and bytes of the pieces that make its tokens
(`wordsOf`): spacing has none (`wordsOf_spacing`), and a piece that is a token stays one in front of
spacing, whatever stood behind it before (`Piece.Starts.firstPiece_append`).
-/

namespace Ivy

/-! ## Tokens in front of spacing -/

/-- Whether `b` is a blank or a byte of a line end. -/
def isSpaceByte (b : UInt8) : Bool := isBlank b || b == lineFeed || b == carriageReturn

/-- Whether `l` is at its end, or goes on with spacing. -/
def Spaced (l : List UInt8) : Prop := ∀ b ∈ l.head?, isSpaceByte b

section Separation

variable {b : UInt8} {l r : List UInt8} {s : Piece} {k : Kind}

theorem Spaced.head?_ne (hr : Spaced r) (hb : ¬ isSpaceByte b) : r.head? ≠ some b :=
  fun hhead => hb (hr b hhead)

/-- A run that takes no spacing stops in front of it. -/
theorem Spaced.takeWhile_append {q : UInt8 → Bool} (hr : Spaced r)
    (hq : ∀ b, isSpaceByte b → ¬ q b) (l : List UInt8) :
    (l.takeWhile q ++ r).takeWhile q = l.takeWhile q := by
  cases r with
  | nil => rw [List.append_nil, List.takeWhile_idem]
  | cons c r => rw [takeWhile_append_cons (hq c (hr c rfl)), List.takeWhile_idem]

theorem not_isWordByte_of_isSpaceByte : ∀ b, isSpaceByte b → ¬ isWordByte b :=
  forall_byte (by decide +kernel)

theorem Spaced.restOfNumber_append (hr : Spaced r) (l : List UInt8) :
    restOfNumber (restOfNumber l ++ r) = restOfNumber l := by
  cases r with
  | nil => rw [List.append_nil, restOfNumber_restOfNumber]
  | cons c r =>
    have hspace : isSpaceByte c := hr c rfl
    have hdigit : ¬ isDigit c := fun hc =>
      not_isWordByte_of_isSpaceByte c hspace (isWordByte_of_isDigit hc)
    have hstop : c ≠ fullStop := by
      rintro rfl
      exact absurd hspace (by decide)
    rw [restOfNumber_append_cons hdigit hstop, restOfNumber_restOfNumber]

/-- A token that is no comment ends where it did, whatever stood behind it, once spacing stands
there. -/
theorem Piece.Starts.firstPiece_append (h : s.Starts b l) (hs : s.form = .token k)
    (hk : k ≠ .commentLine) (hr : Spaced r) : firstPiece (s.bytes ++ r) = s := by
  cases h with
  | unexpected | blanks | lineEnd | longLineEnd | bareCarriageReturn | unterminated => cases hs
  | comment => exact absurd (Form.token.inj hs).symm hk
  | single kind hb =>
    have hlead : Lead.of b = .single kind := (Lead.of_eq_iff (by simp)).2 hb
    simp only [List.cons_append, firstPiece, pieceFrom, hlead]
  | joined second kind alone l' hb =>
    have hlead : Lead.of b = .pair second kind alone := (Lead.of_eq_iff (by simp)).2 hb
    simp only [List.cons_append, firstPiece, pieceFrom, hlead, List.head?_cons, if_true]
  | alone second joined kind hb =>
    have hlead : Lead.of b = .pair second joined kind := (Lead.of_eq_iff (by simp)).2 hb
    have hne := hr.head?_ne ((by decide : ∀ x ∈ pairs, ¬ isSpaceByte x.2.1) _ hb)
    simp only [List.cons_append, List.nil_append, firstPiece, pieceFrom, hlead, if_neg hne]
  | slashForward hb =>
    subst hb
    have hlead : Lead.of slash = .slash := by decide
    have hne : r.head? ≠ some slash := hr.head?_ne (by decide)
    simp only [List.cons_append, List.nil_append, firstPiece, pieceFrom, hlead, if_neg hne]
  | string w hb hw =>
    subst hb
    have hself := restOfString?_append_right (restOfString?_self hw) r
    simp only [List.cons_append, firstPiece, pieceFrom_quotationMark, stringPiece, hself]
  | number hb =>
    simp only [List.cons_append, firstPiece, pieceFrom_of_isDigit hb, hr.restOfNumber_append]
  | word hb =>
    have hrun := hr.takeWhile_append not_isWordByte_of_isSpaceByte l
    simp only [List.cons_append, firstPiece, pieceFrom_of_isLetter hb, hrun]

end Separation

/-! ## Words -/

/-- The kind and the bytes of a piece that makes a token. -/
def Piece.word? (comments : CommentMode) (s : Piece) : Option (Kind × List UInt8) :=
  (s.form.kind? comments).map (·, s.bytes)

/-- The words of the bytes `l`, one for each token that their pieces make. -/
def wordsOf (comments : CommentMode) (l : List UInt8) : List (Kind × List UInt8) :=
  (pieces l).filterMap (Piece.word? comments)

/-- Whether the bytes `w` have been a token of the kind `k` in some text, and no comment. -/
structure IsLexeme (k : Kind) (w : List UInt8) : Prop where
  starts : ∃ b l, Piece.Starts b l ⟨.token k, w⟩
  kind_ne : k ≠ .commentLine
  isText : Utf8.IsText w

section Words

variable {comments : CommentMode} {b : UInt8} {l r w : List UInt8} {k : Kind}

theorem wordsOf_nil : wordsOf comments [] = [] := by rw [wordsOf, pieces_nil, List.filterMap_nil]

theorem wordsOf_cons (comments : CommentMode) (b : UInt8) (l : List UInt8) :
    wordsOf comments (b :: l) = ((pieceFrom b l).word? comments).toList ++
      wordsOf comments ((b :: l).drop (pieceFrom b l).bytes.length) := by
  rw [wordsOf, pieces_cons, List.filterMap_cons, wordsOf]
  cases (pieceFrom b l).word? comments with
  | none => rfl
  | some w => rfl

theorem wordsOf_blanks (hb : isBlank b) :
    wordsOf comments (b :: l) = wordsOf comments (l.dropWhile isBlank) := by
  have hlead : Lead.of b = .blank := (Lead.of_eq_iff (by decide)).2 hb
  have hpiece : pieceFrom b l = ⟨.gap, b :: l.takeWhile isBlank⟩ := by
    simp only [pieceFrom, hlead]
  rw [wordsOf_cons, hpiece, List.length_cons, List.drop_succ_cons, drop_length_takeWhile]
  rfl

theorem wordsOf_blank (hb : isBlank b) : wordsOf comments (b :: l) = wordsOf comments l := by
  rw [wordsOf_blanks hb]
  cases l with
  | nil => rfl
  | cons c l =>
    by_cases hc : isBlank c
    · rw [List.dropWhile_cons_of_pos hc, wordsOf_blanks hc]
    · rw [List.dropWhile_cons_of_neg hc]

theorem wordsOf_lineFeed : wordsOf comments (lineFeed :: l) = wordsOf comments l := by
  rw [wordsOf_cons]
  rfl

theorem wordsOf_longLineEnd :
    wordsOf comments (carriageReturn :: lineFeed :: l) = wordsOf comments l := by
  rw [wordsOf_cons]
  rfl

/-- A lexeme is a word wherever spacing follows it. -/
theorem IsLexeme.wordsOf_append (h : IsLexeme k w) (hr : Spaced r) :
    wordsOf comments (w ++ r) = (k, w) :: wordsOf comments r := by
  obtain ⟨b, l, hstarts⟩ := h.starts
  have hfirst := hstarts.firstPiece_append rfl h.kind_ne hr
  obtain ⟨c, v, rfl⟩ := List.exists_cons_of_length_pos hstarts.length_pos
  have hkind : (Form.token k).kind? comments = some k := by
    rw [Form.kind?, if_neg]
    rw [Bool.and_eq_true, Kind.isTrivia_iff]
    exact fun htrivia => h.kind_ne htrivia.1
  rw [List.cons_append, firstPiece] at hfirst
  rw [List.cons_append, wordsOf_cons, hfirst, Piece.word?, hkind, ← List.cons_append,
    List.drop_left]
  rfl

/-- The words of a text that are no errors are lexemes, if comments are discarded. -/
theorem isLexeme_of_mem (hl : Utf8.IsText l) (hw : (k, w) ∈ wordsOf .discard l)
    (hk : k ≠ .invalid) : IsLexeme k w := by
  obtain ⟨s, hs, hword⟩ := List.mem_filterMap.1 hw
  obtain ⟨kind, hkind, heq⟩ := Option.map_eq_some_iff.1 hword
  cases heq
  obtain ⟨ps, qs, hps⟩ := List.append_of_mem hs
  obtain ⟨b, rest, -, rfl, -, htext⟩ := pieces_eq_append_cons hps
  have hstarts := starts_pieceFrom b rest
  rcases Form.kind?_eq_some hkind with ⟨hform, hcomment⟩ | ⟨-, hinvalid⟩ | ⟨hfinish, -⟩
  · exact
      { starts := ⟨b, rest, hform ▸ hstarts⟩
        kind_ne := hcomment rfl
        isText := hstarts.isText (htext hl) }
  · exact absurd hinvalid hk
  · exact absurd hfinish hstarts.form_ne.1

end Words

/-! ## Texts -/

/-- What separates tokens: a space, a tab or a line end. -/
inductive Space
  | blank
  | tab
  | lineEnd
  | longLineEnd
deriving DecidableEq

/-- The text of a space. -/
def Space.text : Space → String
  | blank => " "
  | tab => "\t"
  | lineEnd => "\n"
  | longLineEnd => "\r\n"

/-- The text of spaces one after the other. -/
def spacing : List Space → String
  | [] => ""
  | s :: gap => s.text ++ spacing gap

/-- The text of lexemes one after the other, each with the spaces behind it. -/
def spaceOut : List (String × List Space) → String
  | [] => ""
  | (lexeme, gap) :: items => lexeme ++ (spacing gap ++ spaceOut items)

/-- The kind and the lexeme of a token. -/
def Source.wordAt (src : Source) (t : Token) : Kind × String := (t.kind, src.lexeme t)

section Texts

variable {comments : CommentMode} {text : String} {offset : Nat}

theorem wordsOf_spacing (gap : List Space) (l : List UInt8) :
    wordsOf comments (Utf8.bytesOf (spacing gap) ++ l) = wordsOf comments l := by
  induction gap with
  | nil => rfl
  | cons s gap ih =>
    rw [spacing, Utf8.bytesOf_append, List.append_assoc, ← ih]
    cases s with
    | blank | tab => exact wordsOf_blank (by decide)
    | lineEnd => exact wordsOf_lineFeed
    | longLineEnd => exact wordsOf_longLineEnd

theorem spaced_spacing {gap : List Space} (h : gap ≠ []) (l : List UInt8) :
    Spaced (Utf8.bytesOf (spacing gap) ++ l) := by
  obtain ⟨s, gap, rfl⟩ := List.exists_cons_of_ne_nil h
  rw [spacing, Utf8.bytesOf_append, List.append_assoc]
  rintro b hb
  cases s <;> cases hb <;> decide

/-- The words of lexemes that are spaced out are these lexemes. -/
theorem wordsOf_spaceOut {ws : List (Kind × List UInt8)} {items : List (String × List Space)}
    (hws : ∀ w ∈ ws, IsLexeme w.1 w.2)
    (hitems : items.map Prod.fst = ws.map fun w => Utf8.textOf w.2.toByteArray)
    (hgaps : ∀ item ∈ items.dropLast, item.2 ≠ []) :
    wordsOf comments (Utf8.bytesOf (spaceOut items)) = ws := by
  induction items generalizing ws with
  | nil =>
    rw [List.map_nil, eq_comm, List.map_eq_nil_iff] at hitems
    rw [hitems]
    exact wordsOf_nil
  | cons item items ih =>
    obtain ⟨lexeme, gap⟩ := item
    cases ws with
    | nil => cases hitems
    | cons w ws =>
      obtain ⟨hw, hws⟩ := List.forall_mem_cons.1 hws
      obtain ⟨hlexeme, hitems⟩ := List.cons.inj hitems
      have hbytes : Utf8.bytesOf lexeme = w.2 :=
        (congrArg Utf8.bytesOf hlexeme).trans hw.isText.bytesOf_textOf
      have hspaced : Spaced (Utf8.bytesOf (spacing gap) ++ Utf8.bytesOf (spaceOut items)) := by
        cases items with
        | cons item items => exact spaced_spacing (hgaps _ List.mem_cons_self) _
        | nil =>
          cases gap with
          | cons s gap => exact spaced_spacing (List.cons_ne_nil s gap) _
          | nil => exact nofun
      have hrest : ∀ item ∈ items.dropLast, item.2 ≠ [] := by
        cases items with
        | nil => exact nofun
        | cons item items => exact fun x hx => hgaps x (List.mem_cons_of_mem _ hx)
      rw [spaceOut, Utf8.bytesOf_append, Utf8.bytesOf_append, hbytes, hw.wordsOf_append hspaced,
        wordsOf_spacing, ih hws hitems hrest]

/-- The tokens in front of the end mark have the kinds and the bytes of the words. -/
theorem map_wordAt_tokensOf (comments : CommentMode) (line : Nat)
    (hsize : text.utf8ByteSize ≤ maxOffset) {l : List UInt8}
    (hdrop : (Utf8.bytesOf text).drop offset = l) :
    (tokensOf comments offset line (pieces l)).dropLast.map (Source.ofString text).wordAt =
      (wordsOf comments l).map fun w => (w.1, Utf8.textOf w.2.toByteArray) := by
  fun_induction pieces l generalizing offset line with
  | case1 =>
    rw [wordsOf_nil]
    rfl
  | case2 b l ih =>
    have hle := add_length_pieceFrom_le hdrop
    have hrest := ih (line + (pieceFrom b l).bytes.count lineFeed) (drop_pieceFrom hdrop)
    rw [tokensOf, List.dropLast_append_of_ne_nil (tokensOf_ne_nil _), List.map_append, hrest,
      wordsOf_cons, List.map_append, Piece.word?]
    congr 1
    cases (pieceFrom b l).form.kind? comments with
    | none => rfl
    | some kind =>
      have hlexeme := text_ofString hsize (Nat.le_add_right offset _) hle
      rw [bytesBetween_pieceFrom hdrop] at hlexeme
      exact congrArg (fun s => [(kind, s)]) hlexeme

/-- The tokens of a text have the kinds and the lexemes of its words. -/
theorem exists_tokenize_words (comments : CommentMode) (h : text.utf8ByteSize < maxOffset) :
    ∃ ts eof, tokenize text comments = .ok (ts ++ [eof]) ∧ eof.kind = .eof ∧
      (∀ t ∈ ts, t.kind ≠ .eof) ∧ ts.map (Source.ofString text).wordAt =
        (wordsOf comments (Utf8.bytesOf text)).map fun w =>
          (w.1, Utf8.textOf w.2.toByteArray) := by
  obtain ⟨ts, hts, hne, -⟩ := exists_tokensOf_eq comments 0 1 (Utf8.bytesOf text)
  have hwords := map_wordAt_tokensOf comments 1 (Nat.le_of_lt h) List.drop_zero
  rw [hts, List.dropLast_concat] at hwords
  exact ⟨ts, _, (tokenize_of_lt h).trans (congrArg Except.ok hts), rfl, hne, hwords⟩

/-- A text without errors may be spaced out anew: its lexemes and their kinds stay. -/
theorem tokenize_spaceOut {tokens : List Token} {eof : Token}
    {items : List (String × List Space)} (front : List Space) (comments : CommentMode)
    (h : text.utf8ByteSize < maxOffset)
    (htokens : tokenize text .discard = .ok (tokens ++ [eof]))
    (hvalid : ∀ t ∈ tokens, t.kind ≠ .invalid)
    (hitems : items.map Prod.fst = tokens.map (Source.ofString text).lexeme)
    (hgaps : ∀ item ∈ items.dropLast, item.2 ≠ [])
    (hsize : (spacing front ++ spaceOut items).utf8ByteSize < maxOffset) :
    ∃ us eof', tokenize (spacing front ++ spaceOut items) comments = .ok (us ++ [eof']) ∧
      eof'.kind = .eof ∧ (∀ u ∈ us, u.kind ≠ .eof) ∧
      us.map (Source.ofString (spacing front ++ spaceOut items)).wordAt =
        tokens.map (Source.ofString text).wordAt := by
  obtain ⟨ts, eof₁, hts, -, -, hwords⟩ := exists_tokenize_words .discard h
  obtain ⟨us, eof', hus, heof', hne, hwords'⟩ := exists_tokenize_words comments hsize
  rw [htokens] at hts
  obtain ⟨rfl, -⟩ := List.append_inj' (Except.ok.inj hts) rfl
  refine ⟨us, eof', hus, heof', hne, ?_⟩
  have hlexemes : ∀ w ∈ wordsOf .discard (Utf8.bytesOf text), IsLexeme w.1 w.2 := by
    rintro ⟨k, w⟩ hw
    apply isLexeme_of_mem (Utf8.isText_bytesOf text) hw
    have hmem := List.mem_map_of_mem (f := fun w => (w.1, Utf8.textOf w.2.toByteArray)) hw
    rw [← hwords] at hmem
    obtain ⟨t, ht, heq⟩ := List.mem_map.1 hmem
    have hkind : t.kind = k := (Prod.mk.inj heq).1
    exact hkind ▸ hvalid t ht
  have hspelled : items.map Prod.fst = (wordsOf .discard (Utf8.bytesOf text)).map
      fun w => Utf8.textOf w.2.toByteArray := by
    have hsnd := congrArg (List.map Prod.snd) hwords
    rw [List.map_map, List.map_map] at hsnd
    exact hitems.trans hsnd
  rw [hwords', hwords, Utf8.bytesOf_append, wordsOf_spacing,
    wordsOf_spaceOut hlexemes hspelled hgaps]

theorem tokenize_spaceOut_string :
    "x=\"//\"//c".utf8ByteSize < maxOffset ∧
      tokenize "x=\"//\"//c" .discard = .ok ([⟨.identifier, 0, 1, 1⟩, ⟨.equals, 1, 2, 1⟩,
        ⟨.literalString, 2, 6, 1⟩] ++ [⟨.eof, 9, 9, 1⟩]) ∧
      (spacing [.tab] ++ spaceOut [("x", [.blank]), ("=", [.lineEnd, .longLineEnd]),
        ("\"//\"", [])]).utf8ByteSize < maxOffset ∧
      ∃ us eof', tokenize (spacing [.tab] ++ spaceOut [("x", [.blank]),
          ("=", [.lineEnd, .longLineEnd]), ("\"//\"", [])]) .retain = .ok (us ++ [eof']) ∧
        eof'.kind = .eof ∧ (∀ u ∈ us, u.kind ≠ .eof) ∧
        us.map (Source.ofString (spacing [.tab] ++ spaceOut [("x", [.blank]),
          ("=", [.lineEnd, .longLineEnd]), ("\"//\"", [])])).wordAt =
            [⟨.identifier, 0, 1, 1⟩, ⟨.equals, 1, 2, 1⟩, ⟨.literalString, 2, 6, 1⟩].map
              (Source.ofString "x=\"//\"//c").wordAt := by
  have htokens : tokenize "x=\"//\"//c" .discard = .ok ([⟨.identifier, 0, 1, 1⟩,
      ⟨.equals, 1, 2, 1⟩, ⟨.literalString, 2, 6, 1⟩] ++ [⟨.eof, 9, 9, 1⟩]) := by
    decide +kernel
  exact ⟨by decide, htokens, by decide,
    tokenize_spaceOut [.tab] .retain (by decide) htokens (by decide) (by decide +kernel)
      (by decide) (by decide)⟩

end Texts

end Ivy
