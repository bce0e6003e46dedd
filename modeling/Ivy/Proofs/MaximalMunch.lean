import Ivy.Proofs.Lexemes
import Ivy.Proofs.PieceGrammar

/-!
# Maximal munch

Every token of a text is a word of its kind, and no longer run of bytes from its start is a word of
any kind; only a comment stops short, where its line ends.  A text that starts with no word gives an
invalid token: one character, or, if it is a quotation mark, all that is left
(`tokenize_munches`).
-/

namespace Ivy

/-- Whether a token takes as many bytes of `text` as it can. -/
structure Token.Munches (t : Token) (text : String) : Prop where
  lexeme_eq : Utf8.bytesOf ((Source.ofString text).lexeme t) = bytesBetween text t.start t.stop
  mem_language : t.kind ≠ .invalid → bytesBetween text t.start t.stop ∈ t.kind.language
  longest : t.kind ≠ .commentLine → t.kind ≠ .invalid → ∀ (k : Kind) stop, t.stop < stop →
    stop ≤ text.utf8ByteSize → bytesBetween text t.start stop ∉ k.language
  comment_stops : t.kind = .commentLine →
    CommentStops (bytesBetween text t.start t.stop) ((Utf8.bytesOf text).drop t.stop)
  invalid_iff : t.kind = .invalid ↔ ∀ (k : Kind) stop, t.start ≤ stop →
    stop ≤ text.utf8ByteSize → bytesBetween text t.start stop ∉ k.language
  invalid_span : t.kind = .invalid →
    (∃ c, c ≠ '"' ∧ (Source.ofString text).lexeme t = String.singleton c) ∨
      (Utf8.bytesOf text)[t.start]? = some quotationMark ∧ t.stop = text.utf8ByteSize

/-! ## Forms of pieces -/

namespace Piece.Starts

variable {b : UInt8} {l : List UInt8} {s : Piece} {k : Kind}

/-- A piece that makes a token is a token or a defect. -/
theorem form_of_kind? {comments : CommentMode} (h : s.Starts b l) (ht : Utf8.IsText (b :: l))
    (hk : s.form.kind? comments = some k) :
    s.form = .token k ∧ k ≠ .invalid ∨ (∃ cause, s.form = .defect cause) ∧ k = .invalid := by
  rcases Form.kind?_eq_some hk with ⟨hs, -⟩ | hdefect | ⟨hs, -⟩
  · refine .inl ⟨hs, ?_⟩
    rintro rfl
    cases h.mem_language ht hs
  · exact .inr hdefect
  · exact absurd hs h.form_ne.1

/-- A defect is one character, or a quotation mark and all that is left behind it. -/
theorem bytes_of_defect {cause : Defect} (h : s.Starts b l) (ht : Utf8.IsText (b :: l))
    (hs : s.form = .defect cause) :
    (∃ c, c ≠ '"' ∧ s.bytes = String.utf8EncodeChar c) ∨ b = quotationMark ∧ s.bytes = b :: l := by
  cases h with
  | unexpected hb =>
    obtain ⟨c, rest, hc, -, hw⟩ := ht.cons
    refine .inl ⟨c, ?_, ?_⟩
    · rintro rfl
      have hquote : b = quotationMark := (List.cons.inj hc).1
      rw [hquote] at hb
      exact absurd hb (by decide)
    · show (b :: l).take (Utf8.width b) = _
      rw [hw, hc, List.take_left]
  | bareCarriageReturn hb => exact .inl ⟨'\r', by decide, by rw [hb]; decide⟩
  | unterminated hb => exact .inr ⟨hb, rfl⟩
  | _ => cases hs

end Piece.Starts

/-! ## Tokens of a text -/

namespace Token.Heads

variable {text : String} {b : UInt8} {rest : List UInt8} {t : Token}

theorem form_cases {comments : CommentMode} (h : t.Heads comments (Utf8.bytesOf text) b rest) :
    (pieceFrom b rest).form = .token t.kind ∧ t.kind ≠ .invalid ∨
      (∃ cause, (pieceFrom b rest).form = .defect cause) ∧ t.kind = .invalid :=
  (starts_pieceFrom b rest).form_of_kind? h.isText h.kind?_eq

theorem mem_language (h : t.Heads .retain (Utf8.bytesOf text) b rest) (hne : t.kind ≠ .invalid) :
    bytesBetween text t.start t.stop ∈ t.kind.language := by
  rcases h.form_cases with ⟨hs, -⟩ | ⟨-, heq⟩
  · rw [h.bytesBetween_eq]
    exact (starts_pieceFrom b rest).mem_language h.isText hs
  · exact absurd heq hne

/-- A word where a token starts is no longer than the token, unless that is a comment. -/
theorem notMem_language_of_lt (h : t.Heads .retain (Utf8.bytesOf text) b rest)
    (hcomment : t.kind ≠ .commentLine) (hne : t.kind ≠ .invalid) {k : Kind} {stop : Nat}
    (hlt : t.stop < stop) (hle : stop ≤ text.utf8ByteSize) :
    bytesBetween text t.start stop ∉ k.language := by
  intro hk
  obtain ⟨k', hk', hcovers⟩ := covers_of_mem_language (h.bytesBetween_isPrefix stop) hk
  rcases h.form_cases with ⟨hs, -⟩ | ⟨-, heq⟩
  · rw [hs] at hk'
    cases hk'
    have hlen := hcovers hcomment
    have hstart := h.start_lt
    rw [length_bytesBetween hle, ← h.bytesBetween_eq, length_bytesBetween h.stop_le] at hlen
    omega
  · exact hne heq

/-- No word starts where an invalid token does. -/
theorem notMem_language_of_invalid (h : t.Heads .retain (Utf8.bytesOf text) b rest)
    (hinvalid : t.kind = .invalid) (k : Kind) (stop : Nat) :
    bytesBetween text t.start stop ∉ k.language := by
  intro hk
  obtain ⟨k', hk', -⟩ := covers_of_mem_language (h.bytesBetween_isPrefix stop) hk
  rcases h.form_cases with ⟨-, hne⟩ | ⟨⟨cause, hs⟩, -⟩
  · exact hne hinvalid
  · rw [hs] at hk'
    cases hk'

theorem comment_stops (h : t.Heads .retain (Utf8.bytesOf text) b rest)
    (hcomment : t.kind = .commentLine) :
    CommentStops (bytesBetween text t.start t.stop) ((Utf8.bytesOf text).drop t.stop) := by
  rcases h.form_cases with ⟨hs, -⟩ | ⟨-, heq⟩
  · rw [h.bytesBetween_eq, h.drop_stop]
    exact (starts_pieceFrom b rest).comment_stops (hs.trans (congrArg Form.token hcomment))
  · rw [hcomment] at heq
    cases heq

theorem invalid_span (h : t.Heads .retain (Utf8.bytesOf text) b rest)
    (hsize : text.utf8ByteSize ≤ maxOffset) (hinvalid : t.kind = .invalid) :
    (∃ c, c ≠ '"' ∧ (Source.ofString text).lexeme t = String.singleton c) ∨
      (Utf8.bytesOf text)[t.start]? = some quotationMark ∧ t.stop = text.utf8ByteSize := by
  rcases h.form_cases with ⟨-, hne⟩ | ⟨⟨cause, hs⟩, -⟩
  · exact absurd hinvalid hne
  · rcases (starts_pieceFrom b rest).bytes_of_defect h.isText hs with ⟨c, hc, hw⟩ | ⟨hb, hw⟩
    · refine .inl ⟨c, hc, ?_⟩
      have hspell := Utf8.textOf_encode [c]
      rw [Utf8.encode_cons, Utf8.encode_nil, List.append_nil] at hspell
      rw [h.lexeme_eq hsize, hw, hspell]
      rfl
    · right
      constructor
      · rw [← List.head?_drop, h.drop_eq, hb]
        rfl
      · have hlen := congrArg List.length h.drop_eq
        have hlt := h.start_lt
        have hle := h.stop_le
        rw [List.length_drop, Utf8.length_bytesOf] at hlen
        rw [h.stop_eq, hw, ← hlen]
        omega

/-- A token that heads what is left of a text munches. -/
theorem munches (h : t.Heads .retain (Utf8.bytesOf text) b rest)
    (hsize : text.utf8ByteSize ≤ maxOffset) : t.Munches text where
  lexeme_eq := by rw [h.bytesBetween_eq, h.bytesOf_lexeme hsize]
  mem_language := h.mem_language
  longest hcomment hne k stop := h.notMem_language_of_lt hcomment hne
  comment_stops := h.comment_stops
  invalid_iff := by
    constructor
    · intro hinvalid k stop _ _
      exact h.notMem_language_of_invalid hinvalid k stop
    · intro hnone
      apply Decidable.byContradiction
      intro hne
      exact hnone t.kind t.stop (Nat.le_of_lt h.start_lt) h.stop_le (h.mem_language hne)
  invalid_span := h.invalid_span hsize

end Token.Heads

/-- Every token but the end mark takes as many bytes as it can. -/
theorem tokenize_munches {text : String} (h : text.utf8ByteSize < maxOffset) :
    ∃ tokens, tokenize text .retain = .ok tokens ∧
      ∀ t ∈ tokens, t.kind ≠ .eof → t.Munches text := by
  have hsize := Nat.le_of_lt h
  refine ⟨_, tokenize_eq hsize (count_lineFeed_lt h), ?_⟩
  intro t ht hne
  rcases heads_of_mem ht (Utf8.isText_bytesOf text) with ⟨b, rest, hheads⟩ | rfl
  · exact hheads.munches hsize
  · exact absurd rfl hne

theorem tokenize_munches_comment :
    "x // y\n\"z".utf8ByteSize < maxOffset ∧
      ∃ tokens, tokenize "x // y\n\"z" .retain = .ok tokens ∧
        ∀ t ∈ tokens, t.kind ≠ .eof → t.Munches "x // y\n\"z" :=
  ⟨by decide, tokenize_munches (by decide)⟩

/-- A quotation mark that no other closes takes more than one character. -/
theorem unterminated_not_singleton :
    tokenize "\"ab" .retain = .ok [⟨.invalid, 0, 3, 1⟩, ⟨.eof, 3, 3, 1⟩] ∧
      ∀ c, (Source.ofString "\"ab").lexeme ⟨.invalid, 0, 3, 1⟩ ≠ String.singleton c := by
  refine ⟨by decide +kernel, fun c hc => ?_⟩
  have hlexeme : (Source.ofString "\"ab").lexeme ⟨.invalid, 0, 3, 1⟩ = "\"ab" := by
    decide +kernel
  have hlen := congrArg String.length (hlexeme.symm.trans hc)
  rw [String.length_singleton] at hlen
  exact absurd hlen (by decide)

end Ivy
