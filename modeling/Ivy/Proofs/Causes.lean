import Ivy.Diagnosis
import Ivy.Proofs.Escapes
import Ivy.Proofs.MaximalMunch
import Ivy.Proofs.Partition

/-!
# Causes

The cause of an error is read off the first character of a lexeme, and it is the true one: the text
holds at the place of the error what the cause says (`LexicalError.Fits`).  For that each defect has
to be told from the others by its first byte (`Defect.HasCause`).  The errors of a text are as many
as its invalid tokens, in their order and at their places (`errors_diagnose`).
-/

namespace Ivy

/-! ## Characters that start nothing -/

/-- Whether no word of any kind and no trivia start with the character. -/
structure StartsNothing (c : Char) : Prop where
  not_word : ∀ k : Kind, ∀ w ∈ k.language, ¬ String.utf8EncodeChar c <+: w
  not_trivia : ∀ comments rest w, Trivia comments rest w → ¬ String.utf8EncodeChar c <+: w

section StartsNothing

variable {b : UInt8} {l : List UInt8}

theorem Lead.ne_of_eq_other (hb : Lead.of b = .other) :
    b ≠ Ivy.quotationMark ∧ b ≠ Ivy.carriageReturn ∧ b ≠ 0 := by
  refine ⟨?_, ?_, ?_⟩
  · rintro rfl
    exact absurd hb (by decide)
  · rintro rfl
    exact absurd hb (by decide)
  · rintro rfl
    exact absurd hb (by decide)

/-- No word starts with a byte that announces nothing. -/
theorem notMem_language_of_other {k : Kind} (hb : Lead.of b = .other) :
    b :: l ∉ k.language := by
  intro hmem
  obtain ⟨k', hk', -⟩ := covers_of_mem_language (List.prefix_refl (b :: l)) hmem
  simp only [pieceFrom, hb, reduceCtorEq] at hk'

theorem not_trivia_of_other {comments : CommentMode} {rest : List UInt8} (hb : Lead.of b = .other) :
    ¬ Trivia comments rest (b :: l) := by
  generalize hw : b :: l = w
  rintro (_ | ⟨c, w, hc⟩ | w | w | ⟨v, w, -, hv⟩)
  · cases hw
  · cases hw
    have hblank : Lead.of b = .blank := (Lead.of_eq_iff (by decide)).2 hc
    rw [hb] at hblank
    cases hblank
  · cases hw
    exact absurd hb (by decide)
  · cases hw
    exact absurd hb (by decide)
  · obtain ⟨u, rfl, -⟩ := Kind.mem_comments_iff.1 hv
    cases hw
    exact absurd hb (by decide)

theorem startsNothing_of_other {c : Char} (hc : String.utf8EncodeChar c = b :: l)
    (hb : Lead.of b = .other) : StartsNothing c where
  not_word k w hw := by
    rintro ⟨r, rfl⟩
    rw [hc, List.cons_append] at hw
    exact notMem_language_of_other hb hw
  not_trivia comments rest w hw := by
    rintro ⟨r, rfl⟩
    rw [hc, List.cons_append] at hw
    exact not_trivia_of_other hb hw

end StartsNothing

/-! ## Defects and their causes -/

/-- Whether the defect on the bytes `w`, which `b :: l` starts with, has the cause. -/
inductive Defect.HasCause (b : UInt8) (l : List UInt8) : Defect → List UInt8 → Cause → Prop
  | unterminated (hb : b = quotationMark) (hl : restOfString? l = none) :
    HasCause b l .unterminatedString (b :: l) .unterminatedString
  | bareCarriageReturn (hb : b = carriageReturn) (hl : l.head? ≠ some lineFeed) :
    HasCause b l .bareCarriageReturn [b] .bareCarriageReturn
  | interiorNull (hb : b = 0) : HasCause b l .unexpectedCharacter [b] .interiorNull
  | unexpected (c : Char) (hb : Lead.of b = .other) (hc : String.utf8EncodeChar c <+: b :: l) :
    HasCause b l .unexpectedCharacter (String.utf8EncodeChar c) (.unexpectedCharacter c)

theorem ofLexeme_encode (c : Char) (cs : List Char) :
    Cause.ofLexeme (Utf8.textOf (Utf8.encode (c :: cs)).toByteArray) =
      if c = '"' then .unterminatedString else if c = '\r' then .bareCarriageReturn
      else if c = '\x00' then .interiorNull else .unexpectedCharacter c := by
  rw [Utf8.textOf_encode, Cause.ofLexeme, String.toList_ofList]
  rfl

section HasCause

variable {b : UInt8} {l w : List UInt8} {d : Defect} {cause : Cause}

/-- The cause that is read off the bytes of a defect is the one that it has. -/
theorem Piece.Starts.hasCause {s : Piece} (h : s.Starts b l) (ht : Utf8.IsText (b :: l))
    (hs : s.form = .defect d) :
    d.HasCause b l s.bytes (Cause.ofLexeme (Utf8.textOf s.bytes.toByteArray)) := by
  cases h with
  | unterminated hb hl =>
    cases hs
    subst hb
    obtain ⟨cs, rfl⟩ := ht.tail (by decide)
    exact (ofLexeme_encode '"' cs).symm ▸ .unterminated rfl hl
  | bareCarriageReturn hb hl =>
    cases hs
    subst hb
    exact (ofLexeme_encode '\r' []).symm ▸ .bareCarriageReturn rfl hl
  | unexpected hb =>
    cases hs
    obtain ⟨c, rest, hc, -, hw⟩ := ht.cons
    have htake : (b :: l).take (Utf8.width b) = String.utf8EncodeChar c := by
      rw [hw, hc, List.take_left]
    show Defect.HasCause b l _ ((b :: l).take (Utf8.width b)) _
    rw [htake]
    rcases hb with hb | hb
    · have hzero : b = 0 := (Lead.of_eq_iff (by decide)).1 hb
      subst hzero
      rw [← htake]
      exact (ofLexeme_encode '\x00' []).symm ▸ .interiorNull rfl
    · obtain ⟨hquote, hcr, hnull⟩ := Lead.ne_of_eq_other hb
      -- An ASCII character is its byte.
      have hne {c' : Char} {b' : UInt8} (hc' : String.utf8EncodeChar c' = [b']) (hb' : b ≠ b') :
          c ≠ c' := by
        rintro rfl
        rw [hc'] at hc
        exact hb' (List.cons.inj hc).1
      have hcause := ofLexeme_encode c []
      have hquote' : c ≠ '"' := hne (by decide) hquote
      have hcr' : c ≠ '\r' := hne (by decide) hcr
      have hnull' : c ≠ '\x00' := hne (by decide) hnull
      rw [if_neg hquote', if_neg hcr', if_neg hnull', Utf8.encode_cons, Utf8.encode_nil,
        List.append_nil] at hcause
      exact hcause.symm ▸ .unexpected c hb ⟨rest, hc.symm⟩
  | _ => cases hs

namespace Defect.HasCause

theorem unterminated_iff (h : d.HasCause b l w cause) :
    cause = .unterminatedString ↔ b = quotationMark := by
  cases h with
  | unterminated hb => exact iff_of_true rfl hb
  | bareCarriageReturn hb | interiorNull hb => exact iff_of_false nofun (by rw [hb]; decide)
  | unexpected c hb => exact iff_of_false nofun (Lead.ne_of_eq_other hb).1

theorem bareCarriageReturn_iff (h : d.HasCause b l w cause) :
    cause = .bareCarriageReturn ↔ b = carriageReturn := by
  cases h with
  | bareCarriageReturn hb => exact iff_of_true rfl hb
  | unterminated hb | interiorNull hb => exact iff_of_false nofun (by rw [hb]; decide)
  | unexpected c hb => exact iff_of_false nofun (Lead.ne_of_eq_other hb).2.1

theorem interiorNull_iff (h : d.HasCause b l w cause) : cause = .interiorNull ↔ b = 0 := by
  cases h with
  | interiorNull hb => exact iff_of_true rfl hb
  | unterminated hb | bareCarriageReturn hb => exact iff_of_false nofun (by rw [hb]; decide)
  | unexpected c hb => exact iff_of_false nofun (Lead.ne_of_eq_other hb).2.2

theorem of_unterminated (h : d.HasCause b l w .unterminatedString) :
    w = b :: l ∧ restOfString? l = none := by
  cases h with
  | unterminated _ hl => exact ⟨rfl, hl⟩

theorem of_bareCarriageReturn (h : d.HasCause b l w .bareCarriageReturn) :
    w = [b] ∧ l.head? ≠ some lineFeed := by
  cases h with
  | bareCarriageReturn _ hl => exact ⟨rfl, hl⟩

theorem of_interiorNull (h : d.HasCause b l w .interiorNull) : w = [b] := by
  cases h with
  | interiorNull => rfl

theorem of_unexpected {c : Char} (h : d.HasCause b l w (.unexpectedCharacter c)) :
    w = String.utf8EncodeChar c ∧ StartsNothing c := by
  cases h with
  | unexpected _ hb hc =>
    obtain ⟨b', v, hv⟩ := List.exists_cons_of_ne_nil (String.utf8EncodeChar_ne_nil (c := c))
    rw [hv] at hc
    obtain ⟨rfl, -⟩ := List.cons_prefix_cons.1 hc
    exact ⟨rfl, startsNothing_of_other hv hb⟩

end Defect.HasCause

end HasCause

/-! ## Errors of a text -/

/-- The error that an invalid token stands for. -/
def Source.errorAt (src : Source) (t : Token) : LexicalError :=
  ⟨Cause.ofLexeme (src.lexeme t), t.start, t.stop, t.line⟩

section ErrorAt

variable {src : Source} {t : Token}

theorem Token.error?_eq_some (hk : t.kind = .invalid) : t.error? src = some (src.errorAt t) := by
  rw [Token.error?, hk]
  rfl

theorem Token.error?_eq_none (hk : t.kind ≠ .invalid) : t.error? src = none :=
  Option.not_isSome_iff_eq_none.1 (mt Token.error?_isSome_iff.1 hk)

theorem Token.error?_eq_map_guard :
    t.error? src = (Option.guard (·.kind = .invalid) t).map src.errorAt := by
  by_cases hk : t.kind = .invalid
  · rw [Token.error?_eq_some hk, Option.guard, decide_eq_true hk]
    rfl
  · rw [Token.error?_eq_none hk, Option.guard, decide_eq_false hk]
    rfl

end ErrorAt

/-- There is one error for each invalid token. -/
theorem Source.errors_eq_map (src : Source) (tokens : List Token) :
    src.errors tokens = (tokens.filter (·.kind = .invalid)).map src.errorAt := by
  rw [Source.errors, ← List.filterMap_eq_filter, List.map_filterMap]
  exact congrArg (List.filterMap · tokens) (funext fun _ => Token.error?_eq_map_guard)

/-- Whether an error says what a text holds at its place. -/
structure LexicalError.Fits (e : LexicalError) (text : String) : Prop where
  start_lt : e.start < e.stop
  unterminated_iff : e.cause = .unterminatedString ↔
    (Utf8.bytesOf text)[e.start]? = some quotationMark
  of_unterminated : e.cause = .unterminatedString → e.stop = text.utf8ByteSize ∧
    ∀ v r, (Utf8.bytesOf text).drop (e.start + 1) = v ++ quotationMark :: r → IsEscaped v
  bareCarriageReturn_iff : e.cause = .bareCarriageReturn ↔
    (Utf8.bytesOf text)[e.start]? = some carriageReturn
  of_bareCarriageReturn : e.cause = .bareCarriageReturn → e.stop = e.start + 1 ∧
    (Utf8.bytesOf text)[e.start + 1]? ≠ some lineFeed
  interiorNull_iff : e.cause = .interiorNull ↔ (Utf8.bytesOf text)[e.start]? = some 0
  of_interiorNull : e.cause = .interiorNull → e.stop = e.start + 1
  of_unexpected : ∀ c, e.cause = .unexpectedCharacter c → e.stop = e.start + c.utf8Size ∧
    bytesBetween text e.start e.stop = String.utf8EncodeChar c ∧ StartsNothing c

namespace Token.Heads

variable {text : String} {comments : CommentMode} {b : UInt8} {rest : List UInt8} {t : Token}

/-- An invalid token is made of a defect, and its error has the cause of that. -/
theorem exists_hasCause (h : t.Heads comments (Utf8.bytesOf text) b rest)
    (hsize : text.utf8ByteSize ≤ maxOffset) (hk : t.kind = .invalid) :
    ∃ d, Defect.HasCause b rest d (pieceFrom b rest).bytes
      ((Source.ofString text).errorAt t).cause := by
  rcases h.form_cases with ⟨-, hne⟩ | ⟨⟨d, hd⟩, -⟩
  · exact absurd hk hne
  · have hcause := (starts_pieceFrom b rest).hasCause h.isText hd
    rw [← h.lexeme_eq hsize] at hcause
    exact ⟨d, hcause⟩

theorem errorAt_fits (h : t.Heads comments (Utf8.bytesOf text) b rest)
    (hsize : text.utf8ByteSize ≤ maxOffset) (hk : t.kind = .invalid) :
    ((Source.ofString text).errorAt t).Fits text := by
  obtain ⟨d, hcause⟩ := h.exists_hasCause hsize hk
  have hbyte (b' : UInt8) : (Utf8.bytesOf text)[t.start]? = some b' ↔ b = b' := by
    rw [h.getElem?_start, Option.some.injEq]
  have hstop {w : List UInt8} (hw : (pieceFrom b rest).bytes = w) :
      t.stop = t.start + w.length := hw ▸ h.stop_eq
  exact
    { start_lt := h.start_lt
      unterminated_iff := hcause.unterminated_iff.trans (hbyte _).symm
      of_unterminated := by
        intro hc
        obtain ⟨hw, hrest⟩ := (hc ▸ hcause).of_unterminated
        refine ⟨(hstop hw).trans h.start_add_length, ?_⟩
        exact h.drop_start_succ.symm ▸ restOfString?_eq_none_iff.1 hrest
      bareCarriageReturn_iff := hcause.bareCarriageReturn_iff.trans (hbyte _).symm
      of_bareCarriageReturn := by
        intro hc
        obtain ⟨hw, hrest⟩ := (hc ▸ hcause).of_bareCarriageReturn
        refine ⟨hstop hw, ?_⟩
        show (Utf8.bytesOf text)[t.start + 1]? ≠ some lineFeed
        rwa [← List.head?_drop, h.drop_start_succ]
      interiorNull_iff := hcause.interiorNull_iff.trans (hbyte _).symm
      of_interiorNull := by
        intro hc
        have hw := (hc ▸ hcause).of_interiorNull
        exact hstop hw
      of_unexpected := by
        intro c hc
        obtain ⟨hw, hnothing⟩ := (hc ▸ hcause).of_unexpected
        refine ⟨?_, h.bytesBetween_eq.trans hw, hnothing⟩
        rw [← String.length_utf8EncodeChar]
        exact hstop hw }

end Token.Heads

/-- Whether errors tell of each invalid token why it is none. -/
structure Diagnoses (text : String) (tokens : List Token) (errors : List LexicalError) :
    Prop where
  /-- There is one error for each invalid token, in its place. -/
  places_eq : errors.map (fun e => (e.start, e.stop, e.line)) =
    (tokens.filter (·.kind = .invalid)).map fun t => (t.start, t.stop, t.line)
  ordered : errors.Pairwise (·.stop ≤ ·.start)
  fits : ∀ e ∈ errors, e.Fits text
  /-- There is a character that tells the cause. -/
  lexeme_ne : ∀ t ∈ tokens, t.kind = .invalid → (Source.ofString text).lexeme t ≠ ""

section Text

variable {text : String}

/-- The errors of the tokens of a text say what is wrong with it. -/
theorem errors_diagnose (comments : CommentMode) (h : text.utf8ByteSize ≤ maxOffset)
    (hl : (Utf8.bytesOf text).count lineFeed < maxOffset) :
    ∃ tokens, tokenize text comments = .ok tokens ∧
      Diagnoses text tokens ((Source.ofString text).errors tokens) := by
  have htext := Utf8.isText_bytesOf text
  obtain ⟨ts, hts, htiles⟩ := @tiles_tokensOf comments text 0 1 _ List.drop_zero (Nat.zero_le _)
    htext
  have hinvalid : (tokensOf comments 0 1 (pieces (Utf8.bytesOf text))).filter
      (·.kind = .invalid) = ts.filter (·.kind = .invalid) := by
    rw [hts, List.filter_append]
    exact List.append_nil _
  have hheads : ∀ t ∈ tokensOf comments 0 1 (pieces (Utf8.bytesOf text)), t.kind = .invalid →
      ∃ b rest, t.Heads comments (Utf8.bytesOf text) b rest := by
    intro t ht hk
    rcases heads_of_mem ht htext with hheads | rfl
    · exact hheads
    · cases hk
  refine ⟨_, tokenize_eq h hl, ?_⟩
  rw [Source.errors_eq_map]
  exact
    { places_eq := List.map_map
      ordered := by
        rw [hinvalid, List.pairwise_map]
        exact htiles.pairwise.filter _
      fits := by
        intro e he
        obtain ⟨t, ht, rfl⟩ := List.mem_map.1 he
        obtain ⟨hmem, hk⟩ := List.mem_filter.1 ht
        obtain ⟨b, rest, hb⟩ := hheads t hmem (of_decide_eq_true hk)
        exact hb.errorAt_fits h (of_decide_eq_true hk)
      lexeme_ne := by
        intro t ht hk
        obtain ⟨b, rest, hb⟩ := hheads t ht hk
        exact hb.lexeme_ne h }

theorem errors_diagnose_retain : "é\r\x00a \"\\\"\n".utf8ByteSize ≤ maxOffset ∧
    (Utf8.bytesOf "é\r\x00a \"\\\"\n").count lineFeed < maxOffset ∧
    ∃ tokens, tokenize "é\r\x00a \"\\\"\n" .retain = .ok tokens ∧
      Diagnoses "é\r\x00a \"\\\"\n" tokens
        ((Source.ofString "é\r\x00a \"\\\"\n").errors tokens) :=
  ⟨by decide, by decide, errors_diagnose .retain (by decide) (by decide)⟩

end Text

end Ivy
