import Ivy.Proofs.PieceRecognition
import Ivy.Token.Stream

/-!
# Streams take the tokens of the pieces

`tokensOf` makes tokens of pieces: it leaves out what is skipped and counts bytes and line feeds.
`eventsOf` are the events of the defects among them.  `TokenStream.pending` is the list of the
tokens that a stream has still to give, the end mark included, and `TokenStream.untold` that of the
events which it has still to tell the log.  A sound stream does not fail: each pull takes the first
of them (`TokenStream.exists_next`), and draining takes them all (`TokenStream.exists_drain`).  So
the tokens of a text are those of its pieces (`tokenize_eq`).
-/

namespace Ivy

/-- The tokens that pieces make, the first of which starts at `offset` on line `line`. -/
def tokensOf (comments : CommentMode) (offset line : Nat) : List Piece → List Token
  | [] => [⟨.eof, offset, offset, line⟩]
  | s :: ps =>
    ((s.form.kind? comments).map (⟨·, offset, offset + s.bytes.length, line⟩)).toList ++
      tokensOf comments (offset + s.bytes.length) (line + s.bytes.count lineFeed) ps

/-- What the log is told of pieces, the first of which starts at `offset` on line `line`. -/
def eventsOf (offset line : Nat) : List Piece → List Event
  | [] => []
  | s :: ps => (s.form.event? offset line).toList ++
    eventsOf (offset + s.bytes.length) (line + s.bytes.count lineFeed) ps

/-- A token of pieces is made of one of them, or is the end mark. -/
theorem mem_tokensOf {comments : CommentMode} {offset line : Nat} {ps : List Piece} {t : Token}
    (h : t ∈ tokensOf comments offset line ps) :
    (∃ ps₁ s ps₂, ps = ps₁ ++ s :: ps₂ ∧ s.form.kind? comments = some t.kind ∧
      t.start = offset + (ps₁.flatMap Piece.bytes).length ∧
      t.stop = t.start + s.bytes.length ∧
      t.line = line + (ps₁.flatMap Piece.bytes).count lineFeed) ∨
    t.kind = .eof ∧ t.start = offset + (ps.flatMap Piece.bytes).length ∧ t.stop = t.start ∧
      t.line = line + (ps.flatMap Piece.bytes).count lineFeed := by
  induction ps generalizing offset line with
  | nil =>
    rw [tokensOf, List.mem_singleton] at h
    subst h
    exact .inr ⟨rfl, rfl, rfl, rfl⟩
  | cons s ps ih =>
    rw [tokensOf, List.mem_append] at h
    rw [List.flatMap_cons, List.length_append, List.count_append, ← Nat.add_assoc, ← Nat.add_assoc]
    rcases h with h | h
    · rw [Option.mem_toList, Option.map_eq_some_iff] at h
      obtain ⟨kind, hkind, rfl⟩ := h
      exact .inl ⟨[], s, ps, rfl, hkind, rfl, rfl, rfl⟩
    · rcases ih h with ⟨ps₁, s', ps₂, rfl, hkind, hstart, hstop, hline⟩ | heof
      · refine .inl ⟨s :: ps₁, s', ps₂, rfl, hkind, ?_, hstop, ?_⟩
        · rw [hstart, List.flatMap_cons, List.length_append, Nat.add_assoc]
        · rw [hline, List.flatMap_cons, List.count_append, Nat.add_assoc]
      · exact .inr heof

/-- Whether `t` is the token of the first piece of `b :: rest`, which is what is left of the bytes
`l` where it starts. -/
structure Token.Heads (t : Token) (comments : CommentMode) (l : List UInt8) (b : UInt8)
    (rest : List UInt8) : Prop where
  drop_eq : l.drop t.start = b :: rest
  isText : Utf8.IsText (b :: rest)
  kind?_eq : (pieceFrom b rest).form.kind? comments = some t.kind
  stop_eq : t.stop = t.start + (pieceFrom b rest).bytes.length
  line_eq : t.line = 1 + (l.take t.start).count lineFeed

/-- A token of a text heads what is left of it where it starts, or is the end mark. -/
theorem heads_of_mem {comments : CommentMode} {l : List UInt8} {t : Token}
    (h : t ∈ tokensOf comments 0 1 (pieces l)) (hl : Utf8.IsText l) :
    (∃ b rest, t.Heads comments l b rest) ∨
      t = ⟨.eof, l.length, l.length, 1 + l.count lineFeed⟩ := by
  rcases mem_tokensOf h with
      ⟨ps₁, s, ps₂, hps, hkind, hstart, hstop, hline⟩ | ⟨hkind, hstart, hstop, hline⟩
  · obtain ⟨b, rest, hsplit, rfl, -, htext⟩ := pieces_eq_append_cons hps
    have hdrop : l.drop t.start = b :: rest := by
      rw [hstart, Nat.zero_add, hsplit, List.drop_left]
    have htake : l.take t.start = ps₁.flatMap Piece.bytes := by
      rw [hstart, Nat.zero_add, hsplit, List.take_left]
    exact .inl ⟨b, rest, hdrop, htext hl, hkind, hstop, htake ▸ hline⟩
  · right
    rw [flatMap_bytes_pieces, Nat.zero_add] at hstart
    rw [flatMap_bytes_pieces] at hline
    obtain ⟨kind, start, stop, line⟩ := t
    simp only at hkind hstart hstop hline
    rw [hkind, hstop, hstart, hline]

/-- A piece becomes no end mark. -/
theorem Piece.Starts.kind?_ne_eof {b : UInt8} {l : List UInt8} {s : Piece} (h : s.Starts b l)
    (comments : CommentMode) : s.form.kind? comments ≠ some .eof := by
  obtain ⟨hfinish, heof⟩ := h.form_ne
  cases hs : s.form with
  | gap | defect => exact nofun
  | finish => exact absurd hs hfinish
  | token kind =>
    rw [Form.kind?]
    split
    · exact nofun
    · intro hkind
      exact heof (hs.trans (congrArg Form.token (Option.some.inj hkind)))

/-- What makes a token is a token itself, a defect or the end. -/
theorem Form.kind?_eq_some {form : Form} {comments : CommentMode} {k : Kind}
    (h : form.kind? comments = some k) :
    form = .token k ∧ (comments = .discard → k ≠ .commentLine) ∨
      (∃ cause, form = .defect cause) ∧ k = .invalid ∨ form = .finish ∧ k = .eof := by
  cases form with
  | gap => cases h
  | token kind =>
    rw [Form.kind?] at h
    split at h
    · cases h
    · next hk =>
      cases h
      rw [Bool.and_eq_true, Kind.isTrivia_iff, beq_iff_eq, not_and'] at hk
      exact .inl ⟨rfl, hk⟩
  | defect cause =>
    cases h
    exact .inr (.inl ⟨⟨cause, rfl⟩, rfl⟩)
  | finish =>
    cases h
    exact .inr (.inr ⟨rfl, rfl⟩)

theorem Form.event?_eq_none {form : Form} {comments : CommentMode}
    (h : form.kind? comments = none) (start line : Nat) : form.event? start line = none := by
  cases form with
  | defect => cases h
  | gap | token | finish => rfl

/-- The end mark comes last and only there, and each other token takes up a byte. -/
theorem exists_tokensOf_eq (comments : CommentMode) (offset line : Nat) (l : List UInt8) :
    ∃ ts, tokensOf comments offset line (pieces l) =
        ts ++ [⟨.eof, offset + l.length, offset + l.length, line + l.count lineFeed⟩] ∧
      (∀ t ∈ ts, t.kind ≠ .eof) ∧ ts.length ≤ l.length := by
  fun_induction pieces l generalizing offset line with
  | case1 => exact ⟨[], rfl, by simp, Nat.le_refl 0⟩
  | case2 b l ih =>
    have hstarts := starts_pieceFrom b l
    have hsplit := hstarts.bytes_append_drop
    have hlen := congrArg List.length hsplit
    have hpos := hstarts.length_pos
    obtain ⟨ts, hts, hne, hle⟩ := ih (offset + (pieceFrom b l).bytes.length)
      (line + (pieceFrom b l).bytes.count lineFeed)
    rw [Nat.add_assoc, Nat.add_assoc, ← List.length_append, ← List.count_append, hsplit] at hts
    rw [List.length_append] at hlen
    rw [tokensOf, hts]
    cases hk : (pieceFrom b l).form.kind? comments with
    | none => exact ⟨ts, rfl, hne, by omega⟩
    | some k =>
      refine ⟨_ :: ts, rfl, List.forall_mem_cons.2 ⟨?_, hne⟩, ?_⟩
      · rintro rfl
        exact hstarts.kind?_ne_eof comments hk
      · rw [List.length_cons]
        omega

namespace TokenStream

/-- The tokens that a stream has still to give. -/
def pending (stream : TokenStream) : List Token :=
  tokensOf stream.comments stream.position.offset stream.line (pieces stream.position.remaining)

/-- What a stream has still to tell the log. -/
def untold (stream : TokenStream) : List Event :=
  eventsOf stream.position.offset stream.line (pieces stream.position.remaining)

/-- The end mark at the position of a stream. -/
def endMark (stream : TokenStream) : Token :=
  ⟨.eof, stream.position.offset, stream.position.offset, stream.line⟩

/-- Whether a stream stands in a text, and the lines that are left can be numbered. -/
structure Sound (stream : TokenStream) : Prop where
  inText : stream.position.InText
  line_le : stream.line + stream.position.remaining.count lineFeed ≤ maxOffset

/-- Whether a pull takes the next token off a stream, and tells what there is to tell up to its
end. -/
structure Pull.Takes (p : Pull) (stream : TokenStream) : Prop where
  sound : p.rest.Sound
  source_eq : p.rest.position.source = stream.position.source
  comments_eq : p.rest.comments = stream.comments
  stop_eq : p.token.stop = p.rest.position.offset
  /-- The line feeds that are left and those counted make up all. -/
  line_add : p.rest.line + p.rest.position.remaining.count lineFeed =
    stream.line + stream.position.remaining.count lineFeed
  pending_eq :
    p.token = p.rest.endMark ∧ p.rest.position.remaining = [] ∧ stream.pending = [p.token] ∨
    p.token.kind ≠ .eof ∧ stream.pending = p.token :: p.rest.pending ∧
      stream.position.offset < p.rest.position.offset
  untold_eq : stream.untold = p.event?.toList ++ p.rest.untold

variable {stream : TokenStream}

theorem pending_of_nil (h : stream.position.remaining = []) :
    stream.pending = [stream.endMark] := by
  rw [pending, h, pieces_nil, tokensOf, endMark]

theorem untold_of_nil (h : stream.position.remaining = []) : stream.untold = [] := by
  rw [untold, h, pieces_nil, eventsOf]

section Behind

variable {b : UInt8} {l : List UInt8} {s : Piece}

theorem remaining_behind (hs : s.Starts b l) (hr : stream.position.remaining = b :: l) :
    stream.position.remaining = s.bytes ++
      (stream.behind (s.stretch stream.position stream.line)).position.remaining := by
  have hrest := Position.remaining_moveTo stream.position s.bytes.length
  rw [hr] at hrest
  rw [hr, ← hs.bytes_append_drop]
  exact congrArg (s.bytes ++ ·) hrest.symm

theorem line_add_behind (hs : s.Starts b l) (hr : stream.position.remaining = b :: l) :
    (stream.behind (s.stretch stream.position stream.line)).line +
        (stream.behind (s.stretch stream.position stream.line)).position.remaining.count lineFeed =
      stream.line + stream.position.remaining.count lineFeed := by
  rw [remaining_behind hs hr, List.count_append, ← Nat.add_assoc]
  rfl

theorem Sound.behind (h : stream.Sound) (hs : s.Starts b l)
    (hr : stream.position.remaining = b :: l) :
    (stream.behind (s.stretch stream.position stream.line)).Sound where
  inText := h.inText.moveTo (by
    rw [remaining_behind hs hr, List.length_append]
    exact Nat.le_add_right _ _)
  line_le := line_add_behind hs hr ▸ h.line_le

theorem pieces_remaining (hr : stream.position.remaining = b :: l) :
    pieces stream.position.remaining = pieceFrom b l ::
      pieces (stream.behind
        ((pieceFrom b l).stretch stream.position stream.line)).position.remaining := by
  have hrest := Position.remaining_moveTo stream.position (pieceFrom b l).bytes.length
  rw [hr] at hrest
  rw [hr, pieces_cons, ← hrest]
  rfl

/-- The first piece makes at most one token, and the rest make those that are left behind it. -/
theorem pending_eq_append (hr : stream.position.remaining = b :: l) : stream.pending =
    (((pieceFrom b l).form.kind? stream.comments).map (⟨·, stream.position.offset,
      stream.position.offset + (pieceFrom b l).bytes.length, stream.line⟩)).toList ++
      (stream.behind ((pieceFrom b l).stretch stream.position stream.line)).pending := by
  rw [pending, pieces_remaining hr, tokensOf]
  rfl

/-- The first piece has at most one event, and the rest have those that are told behind it. -/
theorem untold_eq_append (hr : stream.position.remaining = b :: l) : stream.untold =
    ((pieceFrom b l).form.event? stream.position.offset stream.line).toList ++
      (stream.behind ((pieceFrom b l).stretch stream.position stream.line)).untold := by
  rw [untold, pieces_remaining hr, eventsOf]
  rfl

/-! ## One token -/

/-- Behind the last byte a pull takes the end mark. -/
theorem takes_endMark (h : stream.Sound) (hr : stream.position.remaining = []) :
    Pull.Takes ⟨stream.endMark, stream, none⟩ stream where
  sound := h
  source_eq := rfl
  comments_eq := rfl
  stop_eq := rfl
  line_add := rfl
  pending_eq := .inl ⟨rfl, hr, pending_of_nil hr⟩
  untold_eq := rfl

/-- What is taken behind a piece that makes no token is taken off the stream. -/
theorem Pull.Takes.of_behind {p : Pull} (hr : stream.position.remaining = b :: l)
    (hk : (pieceFrom b l).form.kind? stream.comments = none)
    (h : p.Takes (stream.behind ((pieceFrom b l).stretch stream.position stream.line))) :
    p.Takes stream := by
  have hstarts := starts_pieceFrom b l
  have hpending := pending_eq_append hr
  have huntold := untold_eq_append hr
  rw [hk] at hpending
  rw [Form.event?_eq_none hk] at huntold
  exact
    { h with
      line_add := h.line_add.trans (line_add_behind hstarts hr)
      pending_eq := by
        rw [hpending]
        rcases h.pending_eq with ⟨heof, htaken⟩ | ⟨hne, htaken, hlt⟩
        · exact .inl ⟨heof, htaken⟩
        · exact .inr ⟨hne, htaken, Nat.lt_of_le_of_lt (Nat.le_add_right _ _) hlt⟩
      untold_eq := huntold.trans h.untold_eq }

/-- A pull takes the token that the first piece makes. -/
theorem takes_pieceFrom {kind : Kind} (h : stream.Sound) (hr : stream.position.remaining = b :: l)
    (hk : (pieceFrom b l).form.kind? stream.comments = some kind) :
    Pull.Takes
      ⟨⟨kind, stream.position.offset,
          stream.position.offset + (pieceFrom b l).bytes.length, stream.line⟩,
        stream.behind ((pieceFrom b l).stretch stream.position stream.line),
        (pieceFrom b l).form.event? stream.position.offset stream.line⟩ stream := by
  have hstarts := starts_pieceFrom b l
  have hpending := pending_eq_append hr
  have hlt := hstarts.length_pos
  have hne : kind ≠ .eof := by
    rintro rfl
    exact hstarts.kind?_ne_eof _ hk
  rw [hk] at hpending
  exact
    { sound := h.behind hstarts hr
      source_eq := rfl
      comments_eq := rfl
      stop_eq := rfl
      line_add := line_add_behind hstarts hr
      pending_eq := .inr ⟨hne, hpending, Nat.lt_add_of_pos_right hlt⟩
      untold_eq := untold_eq_append hr }

end Behind

/-- A sound stream gives its next token. -/
theorem exists_next (h : stream.Sound) : ∃ p, stream.next = .ok p ∧ p.Takes stream := by
  fun_induction next stream with
  | case1 stream fault hs =>
    rw [recognise_eq h.inText h.line_le] at hs
    cases hs
  | case2 stream s hs hk ih =>
    rw [recognise_eq h.inText h.line_le] at hs
    cases hs
    cases hr : stream.position.remaining with
    | nil =>
      rw [hr] at hk
      cases hk
    | cons b l =>
      rw [hr, firstPiece] at hk ih
      obtain ⟨p, hp, htakes⟩ := ih (h.behind (starts_pieceFrom b l) hr)
      exact ⟨p, hp, htakes.of_behind hr hk⟩
  | case3 stream s hs kind hk =>
    rw [recognise_eq h.inText h.line_le] at hs
    cases hs
    refine ⟨_, bind_eq_ok_iff.2
      ⟨_, Token.ofSpan_eq_ok_iff.2 ⟨Nat.le_add_right _ _, rfl⟩, rfl⟩, ?_⟩
    cases hr : stream.position.remaining with
    | nil =>
      rw [hr] at hk
      cases hk
      exact takes_endMark h hr
    | cons b l =>
      rw [hr, firstPiece] at hk
      exact takes_pieceFrom h hr hk

/-! ## All tokens -/

/-- Whether `d` is what is drained off a stream, behind the tokens `taken` and the events `told`
before. -/
structure Drained.Takes (d : Drained) (taken : List Token) (told : List Event)
    (stream : TokenStream) : Prop where
  sound : d.rest.Sound
  source_eq : d.rest.position.source = stream.position.source
  comments_eq : d.rest.comments = stream.comments
  line_add : d.rest.line = stream.line + stream.position.remaining.count lineFeed
  remaining_eq : d.rest.position.remaining = []
  eof_eq : d.eof = d.rest.endMark
  tokens_eq : d.tokens ++ [d.eof] = taken ++ stream.pending
  log_eq : d.log = told ++ stream.untold

theorem reverse_toList_append {α : Type} (o : Option α) (l : List α) :
    (o.toList ++ l).reverse = l.reverse ++ o.toList := by
  cases o <;> simp

theorem exists_drainFrom (h : stream.Sound) (tokens : List Token) (log : List Event) :
    ∃ d, stream.drainFrom tokens log = .ok d ∧ d.Takes tokens.reverse log.reverse stream := by
  fun_induction drainFrom stream tokens log with
  | case1 stream _ _ fault hp =>
    obtain ⟨p, hp', -⟩ := exists_next h
    rw [hp] at hp'
    cases hp'
  | case2 stream tokens _ p hp _ he =>
    obtain ⟨p, hp', htakes⟩ := exists_next h
    rw [hp] at hp'
    cases hp'
    rcases htakes.pending_eq with ⟨heof, hrest, hpending⟩ | ⟨hne, -⟩
    · have hline := htakes.line_add
      rw [hrest, List.count_nil, Nat.add_zero] at hline
      refine ⟨_, rfl, ?_⟩
      exact
        { sound := htakes.sound
          source_eq := htakes.source_eq
          comments_eq := htakes.comments_eq
          line_add := hline
          remaining_eq := hrest
          eof_eq := heof
          tokens_eq := by rw [hpending]
          log_eq := by
            rw [htakes.untold_eq, untold_of_nil hrest, List.append_nil, reverse_toList_append] }
    · exact absurd he hne
  | case3 stream tokens _ p hp log he ih =>
    obtain ⟨p, hp', htakes⟩ := exists_next h
    rw [hp] at hp'
    cases hp'
    rcases htakes.pending_eq with ⟨heof, -⟩ | ⟨-, hpending, -⟩
    · exact absurd (congrArg Token.kind heof) he
    · obtain ⟨d, hd, hdrained⟩ := ih htakes.sound
      refine ⟨d, hd, ?_⟩
      exact
        { hdrained with
          source_eq := hdrained.source_eq.trans htakes.source_eq
          comments_eq := hdrained.comments_eq.trans htakes.comments_eq
          line_add := hdrained.line_add.trans htakes.line_add
          tokens_eq := by
            rw [hdrained.tokens_eq, hpending, List.reverse_cons, List.append_assoc]
            rfl
          log_eq := by
            rw [hdrained.log_eq, htakes.untold_eq, reverse_toList_append, List.append_assoc] }

/-- A sound stream can be drained, and gives all its tokens. -/
theorem exists_drain (h : stream.Sound) : ∃ d, stream.drain = .ok d ∧ d.Takes [] [] stream :=
  exists_drainFrom h [] []

/-- A scan gives the tokens that a stream has still to give, and tells the log what it has still to
tell and how many tokens and lines there were. -/
theorem exists_scan_log (h : stream.Sound) :
    ∃ sc, stream.scan = .ok sc ∧ sc.tokens = stream.pending ∧
      sc.log = stream.untold ++ [.scanComplete sc.tokens.length (sc.tokens.countP (·.kind.isError))
        (stream.line + stream.position.remaining.count lineFeed)] := by
  obtain ⟨d, hd, htakes⟩ := exists_drain h
  have hlog := htakes.log_eq
  rw [List.nil_append] at hlog
  rw [scan, hd, ← htakes.line_add, ← hlog]
  exact ⟨_, rfl, htakes.tokens_eq, rfl⟩

theorem exists_scan (h : stream.Sound) :
    ∃ sc, stream.scan = .ok sc ∧ sc.tokens = stream.pending := by
  obtain ⟨sc, hsc, htokens, -⟩ := exists_scan_log h
  exact ⟨sc, hsc, htokens⟩

end TokenStream

/-! ## The tokens of a text -/

section Text

variable {text : String} {comments : CommentMode}

theorem sound_tokens (h : text.utf8ByteSize ≤ maxOffset)
    (hl : (Utf8.bytesOf text).count lineFeed < maxOffset) :
    ((Source.ofString text).tokens comments).Sound where
  inText := inText_start h
  line_le := by
    show 1 + (Source.ofString text).start.remaining.count lineFeed ≤ maxOffset
    rw [remaining_start h]
    omega

/-- The stream of a text has the tokens of its pieces to give. -/
theorem pending_tokens (h : text.utf8ByteSize ≤ maxOffset) :
    ((Source.ofString text).tokens comments).pending =
      tokensOf comments 0 1 (pieces (Utf8.bytesOf text)) :=
  congrArg (fun l => tokensOf comments 0 1 (pieces l)) (remaining_start h)

/-- The tokens of a text are those of its pieces. -/
theorem tokenize_eq (h : text.utf8ByteSize ≤ maxOffset)
    (hl : (Utf8.bytesOf text).count lineFeed < maxOffset) :
    tokenize text comments = .ok (tokensOf comments 0 1 (pieces (Utf8.bytesOf text))) := by
  have hsound : ((Source.ofString text).tokens comments).Sound := sound_tokens h hl
  obtain ⟨sc, hsc, htokens⟩ := TokenStream.exists_scan hsound
  rw [tokenize, hsc]
  exact congrArg Except.ok (htokens.trans (pending_tokens h))

/-- A text shorter than the largest offset has few enough lines. -/
theorem count_lineFeed_lt (h : text.utf8ByteSize < maxOffset) :
    (Utf8.bytesOf text).count lineFeed < maxOffset := by
  have := List.count_le_length (a := lineFeed) (l := Utf8.bytesOf text)
  rw [Utf8.length_bytesOf] at this
  omega

theorem tokenize_of_lt (h : text.utf8ByteSize < maxOffset) :
    tokenize text comments = .ok (tokensOf comments 0 1 (pieces (Utf8.bytesOf text))) :=
  tokenize_eq (Nat.le_of_lt h) (count_lineFeed_lt h)

end Text

end Ivy
