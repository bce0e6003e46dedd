import Ivy.Proofs.Lexemes

/-!
# Character boundaries

Tokens start and stop between characters, so a text falls into what stands in front of a token, its
lexeme and what stands behind it, and the lexeme of a token is never a stand-in for bytes that spell
nothing.  The spelling by which a word is told from a keyword is the lexeme of its token
(`tokenize_boundaries`).
-/

namespace Ivy

/-! ## Spans of a text -/

section Spans

variable {text : String} {start stop : Nat}

/-- A text falls into what is in front of a span, the span and what is behind it. -/
theorem exists_eq_append_text (h : text.utf8ByteSize ≤ maxOffset) (hle : start ≤ stop)
    (hstop : stop ≤ text.utf8ByteSize) (hfront : Utf8.IsText ((Utf8.bytesOf text).take start))
    (hspan : Utf8.IsText (bytesBetween text start stop)) : ∃ front back,
      text = front ++ (Source.ofString text).text start stop ++ back ∧
      front.utf8ByteSize = start ∧
      (front ++ (Source.ofString text).text start stop).utf8ByteSize = stop := by
  have hsplit := (List.take_append_drop start (Utf8.bytesOf text)).symm
  rw [← bytesBetween_append_drop text hle] at hsplit
  obtain ⟨front, rest, rfl, hbytes, hrest⟩ := Utf8.exists_eq_append hsplit hfront
  obtain ⟨mid, back, rfl, hmid, -⟩ := Utf8.exists_eq_append hrest hspan
  have htext : (Source.ofString (front ++ (mid ++ back))).text start stop = mid := by
    rw [text_ofString h hle hstop, ← hmid, Utf8.textOf_bytesOf]
  have hfrontSize := congrArg List.length hbytes
  have hmidSize := congrArg List.length hmid
  rw [Utf8.length_bytesOf, List.length_take, Utf8.length_bytesOf] at hfrontSize
  rw [Utf8.length_bytesOf, length_bytesBetween hstop] at hmidSize
  refine ⟨front, back, by rw [htext, String.append_assoc], by omega, ?_⟩
  rw [htext, String.utf8ByteSize_append]
  omega

/-- The text of a span between characters is what its bytes are decoded to. -/
theorem fromUTF8?_extract (h : text.utf8ByteSize ≤ maxOffset) (hle : start ≤ stop)
    (hstop : stop ≤ text.utf8ByteSize) (hspan : Utf8.IsText (bytesBetween text start stop)) :
    String.fromUTF8? ((Source.ofString text).buffer.extract start stop) =
      some ((Source.ofString text).text start stop) := by
  rw [text_ofString h hle hstop, ← hspan.fromUTF8?_eq]
  rw [← Source.length_ofString h] at hstop
  rw [(Source.wellLaid_ofString h).extract_eq hstop, Source.content_ofString h]
  rfl

end Spans

/-! ## Words -/

/-- Whether the tokens of a kind are words. -/
def Kind.IsWord (k : Kind) : Prop := k = .identifier ∨ k.isKeyword

instance (k : Kind) : Decidable k.IsWord :=
  inferInstanceAs (Decidable (k = .identifier ∨ k.isKeyword))

section Words

variable {b : UInt8} {l : List UInt8} {s : Piece} {k : Kind}

/-- A word starts with a letter. -/
theorem Piece.Starts.isLetter (h : s.Starts b l) (hs : s.form = .token k) (hk : k.IsWord) :
    isLetter b := by
  cases h with
  | word hb => exact hb
  | single kind hb =>
    cases hs
    exact absurd hk ((by decide : ∀ x ∈ singles, ¬ x.2.IsWord) _ hb)
  | joined second kind alone l' hb =>
    cases hs
    exact absurd hk ((by decide : ∀ x ∈ pairs, ¬ x.2.2.1.IsWord) _ hb)
  | alone second joined kind hb =>
    cases hs
    exact absurd hk ((by decide : ∀ x ∈ pairs, ¬ x.2.2.2.IsWord) _ hb)
  | comment | slashForward | string | number =>
    cases hs
    exact absurd hk (by decide)
  | _ => cases hs

end Words

/-! ## Tokens of a text -/

/-- Whether a token of a text stands between characters, and its lexeme is the text there. -/
structure Token.StandsIn (t : Token) (text : String) : Prop where
  isValid_start : String.Pos.Raw.IsValid text ⟨t.start⟩
  isValid_stop : String.Pos.Raw.IsValid text ⟨t.stop⟩
  eq_append : ∃ front back, text = front ++ (Source.ofString text).lexeme t ++ back ∧
    front.utf8ByteSize = t.start ∧
    (front ++ (Source.ofString text).lexeme t).utf8ByteSize = t.stop
  /-- The span lies in the text, and its bytes are decoded to the lexeme. -/
  decoded : t.start ≤ t.stop ∧ t.stop ≤ (Source.ofString text).length ∧
    String.fromUTF8? ((Source.ofString text).buffer.extract t.start t.stop) =
      some ((Source.ofString text).lexeme t)
  lexeme_eq_empty_iff : (Source.ofString text).lexeme t = "" ↔ t.kind = .eof
  isWord_iff : t.kind.IsWord ↔ ∃ b, (Utf8.bytesOf text)[t.start]? = some b ∧ isLetter b
  /-- What is looked up among the keywords is the lexeme. -/
  readWord_eq : t.kind.IsWord → readWord ((Source.ofString text).start.moveTo t.start) =
      .ok ((Source.ofString text).lexeme t, (Source.ofString text).start.moveTo t.stop) ∧
    t.kind = (Kind.ofKeyword? ((Source.ofString text).lexeme t)).getD .identifier

theorem isValid_of_eq_append {text front back : String} {n : Nat} (h : text = front ++ back)
    (hn : front.utf8ByteSize = n) : String.Pos.Raw.IsValid text ⟨n⟩ :=
  String.Pos.Raw.isValid_iff_exists_append.2 ⟨front, back, h, hn ▸ rfl⟩

/-- A token with a span between characters and a lexeme that is empty only at the end. -/
theorem Token.StandsIn.of_isText {text : String} {t : Token} (h : text.utf8ByteSize ≤ maxOffset)
    (hle : t.start ≤ t.stop) (hstop : t.stop ≤ text.utf8ByteSize)
    (hfront : Utf8.IsText ((Utf8.bytesOf text).take t.start))
    (hspan : Utf8.IsText (bytesBetween text t.start t.stop))
    (hempty : (Source.ofString text).lexeme t = "" ↔ t.kind = .eof)
    (hword : t.kind.IsWord ↔ ∃ b, (Utf8.bytesOf text)[t.start]? = some b ∧ isLetter b)
    (hread : t.kind.IsWord → readWord ((Source.ofString text).start.moveTo t.start) =
        .ok ((Source.ofString text).lexeme t, (Source.ofString text).start.moveTo t.stop) ∧
      t.kind = (Kind.ofKeyword? ((Source.ofString text).lexeme t)).getD .identifier) :
    t.StandsIn text := by
  have hsplit := exists_eq_append_text h hle hstop hfront hspan
  obtain ⟨front, back, heq, hstart, hstop'⟩ := hsplit
  exact
    { isValid_start := isValid_of_eq_append (heq.trans (String.append_assoc ..)) hstart
      isValid_stop := isValid_of_eq_append heq hstop'
      eq_append := ⟨front, back, heq, hstart, hstop'⟩
      decoded := ⟨hle, by rwa [Source.length_ofString h], fromUTF8?_extract h hle hstop hspan⟩
      lexeme_eq_empty_iff := hempty
      isWord_iff := hword
      readWord_eq := hread }

namespace Token.Heads

variable {text : String} {comments : CommentMode} {b : UInt8} {rest : List UInt8} {t : Token}

/-- What is in front of a token is a text. -/
theorem isText_take (h : t.Heads comments (Utf8.bytesOf text) b rest) :
    Utf8.IsText ((Utf8.bytesOf text).take t.start) := by
  have hsplit := List.take_append_drop t.start (Utf8.bytesOf text)
  have htext := Utf8.isText_bytesOf text
  rw [h.drop_eq] at hsplit
  rw [← hsplit] at htext
  exact (htext.cut h.isText.isUTF8FirstByte).1

theorem isText_span (h : t.Heads comments (Utf8.bytesOf text) b rest) :
    Utf8.IsText (bytesBetween text t.start t.stop) := by
  rw [h.bytesBetween_eq]
  exact (starts_pieceFrom b rest).isText h.isText

/-- A token that starts with a letter is the word there. -/
theorem kind_eq_wordKind (h : t.Heads comments (Utf8.bytesOf text) b rest) (hb : isLetter b) :
    t.kind = wordKind (b :: rest.takeWhile isWordByte) := by
  have hk := h.kind?_eq
  rw [pieceFrom_of_isLetter hb] at hk
  rcases Form.kind?_eq_some hk with ⟨hs, -⟩ | ⟨⟨cause, hs⟩, -⟩ | ⟨hs, -⟩
  · exact (Form.token.inj hs).symm
  · cases hs
  · cases hs

theorem isWord_iff (h : t.Heads comments (Utf8.bytesOf text) b rest) :
    t.kind.IsWord ↔ isLetter b := by
  constructor
  · intro hk
    rcases Form.kind?_eq_some h.kind?_eq with ⟨hs, -⟩ | ⟨-, heq⟩ | ⟨-, heq⟩
    · exact (starts_pieceFrom b rest).isLetter hs hk
    · rw [heq] at hk
      exact absurd hk (by decide)
    · exact absurd heq h.kind_ne_eof
  · intro hb
    rw [h.kind_eq_wordKind hb]
    exact wordKind_cases _

/-- The word that is read where a token starts with a letter is its lexeme. -/
theorem readWord_eq (h : t.Heads comments (Utf8.bytesOf text) b rest)
    (hsize : text.utf8ByteSize ≤ maxOffset) (hb : isLetter b) :
    readWord ((Source.ofString text).start.moveTo t.start) =
      .ok ((Source.ofString text).lexeme t, (Source.ofString text).start.moveTo t.stop) := by
  have hle : t.start ≤ text.utf8ByteSize :=
    Nat.le_trans (Nat.le_of_lt h.start_lt) h.stop_le
  have hin : ((Source.ofString text).start.moveTo t.start).InText := inText_of_source hsize rfl hle
  have hremaining : ((Source.ofString text).start.moveTo t.start).remaining = b :: rest :=
    (remaining_of_source hsize rfl).trans h.drop_eq
  rw [Ivy.readWord_eq hin hremaining, h.lexeme_eq hsize, h.stop_eq, pieceFrom_of_isLetter hb]
  rfl

theorem standsIn (h : t.Heads comments (Utf8.bytesOf text) b rest)
    (hsize : text.utf8ByteSize ≤ maxOffset) : t.StandsIn text := by
  apply StandsIn.of_isText hsize (Nat.le_of_lt h.start_lt) h.stop_le h.isText_take h.isText_span
  · exact iff_of_false (h.lexeme_ne hsize) h.kind_ne_eof
  · rw [h.getElem?_start, h.isWord_iff]
    simp
  · intro hk
    have hb := h.isWord_iff.1 hk
    refine ⟨h.readWord_eq hsize hb, ?_⟩
    rw [h.kind_eq_wordKind hb, h.lexeme_eq hsize, pieceFrom_of_isLetter hb]
    rfl

end Token.Heads

/-- The end mark stands behind the last character. -/
theorem standsIn_eof {text : String} (hsize : text.utf8ByteSize ≤ maxOffset) (line : Nat) :
    Token.StandsIn ⟨.eof, (Utf8.bytesOf text).length, (Utf8.bytesOf text).length, line⟩ text := by
  have hnone : ¬ Kind.eof.IsWord := by decide
  rw [Utf8.length_bytesOf]
  have hempty : bytesBetween text text.utf8ByteSize text.utf8ByteSize = [] := by
    rw [bytesBetween, Nat.sub_self, List.take_zero]
  apply Token.StandsIn.of_isText hsize (Nat.le_refl _) (Nat.le_refl _)
  · show Utf8.IsText ((Utf8.bytesOf text).take text.utf8ByteSize)
    rw [← Utf8.length_bytesOf, List.take_length]
    exact Utf8.isText_bytesOf text
  · exact hempty ▸ Utf8.isText_nil
  · refine iff_of_true ?_ rfl
    rw [Source.lexeme, text_ofString hsize (Nat.le_refl _) (Nat.le_refl _), hempty]
    decide
  · refine iff_of_false hnone ?_
    rintro ⟨b, hb, -⟩
    rw [List.getElem?_eq_none (Nat.le_of_eq (Utf8.length_bytesOf text))] at hb
    cases hb
  · exact fun hk => absurd hk hnone

/-- Tokens start and stop between characters, and their lexemes are what stands there. -/
theorem tokenize_boundaries {text : String} (comments : CommentMode)
    (h : text.utf8ByteSize < maxOffset) : ∃ tokens, tokenize text comments = .ok tokens ∧
      ∀ t ∈ tokens, t.StandsIn text := by
  have hsize := Nat.le_of_lt h
  refine ⟨_, tokenize_of_lt h, ?_⟩
  intro t ht
  rcases heads_of_mem ht (Utf8.isText_bytesOf text) with ⟨b, rest, hheads⟩ | rfl
  · exact hheads.standsIn hsize
  · exact standsIn_eof hsize _

theorem tokenize_boundaries_escaped : "é fn x \"\\é\" // é\r\n".utf8ByteSize < maxOffset ∧
    ∃ tokens, tokenize "é fn x \"\\é\" // é\r\n" .retain = .ok tokens ∧
      ∀ t ∈ tokens, t.StandsIn "é fn x \"\\é\" // é\r\n" :=
  ⟨by decide, tokenize_boundaries .retain (by decide)⟩

end Ivy
