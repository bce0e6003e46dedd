import Ivy.Proofs.TokenSpans

/-!
# Line numbers within their limit

A text whose offsets can be counted has lines that can be numbered, with one exception: the text of
nothing but line feeds that is as long as a text may be.  It has one line more than there are line
numbers, and no token of it is ever given (`tokenize_numbersLines`).
-/

namespace Ivy

/-- The text of `n` line feeds. -/
def lineFeeds (n : Nat) : String := String.ofList (List.replicate n '\n')

section LineFeeds

variable {text : String} {n : Nat}

theorem bytesOf_lineFeeds (n : Nat) :
    Utf8.bytesOf (lineFeeds n) = List.replicate n lineFeed := by
  rw [Utf8.bytesOf_eq_encode, lineFeeds, String.toList_ofList]
  induction n with
  | zero => rfl
  | succ n ih =>
    rw [List.replicate_succ, List.replicate_succ, Utf8.encode_cons, ih]
    rfl

theorem utf8ByteSize_lineFeeds (n : Nat) : (lineFeeds n).utf8ByteSize = n := by
  rw [← Utf8.length_bytesOf, bytesOf_lineFeeds, List.length_replicate]

/-- A text with as many line feeds as bytes has nothing else. -/
theorem eq_lineFeeds (hsize : text.utf8ByteSize ≤ n)
    (hcount : n ≤ (Utf8.bytesOf text).count lineFeed) : text = lineFeeds n := by
  have hle := List.count_le_length (a := lineFeed) (l := Utf8.bytesOf text)
  rw [← Utf8.length_bytesOf] at hsize
  have hlen : (Utf8.bytesOf text).length = n := by omega
  have hall := List.count_eq_length.1 (Nat.le_antisymm hle (hlen ▸ hcount))
  rw [← Utf8.bytesOf_inj, bytesOf_lineFeeds, ← hlen]
  exact List.eq_replicate_of_mem fun b hb => (hall b hb).symm

end LineFeeds

/-! ## Too many lines -/

section Overflow

variable {p : Position} {line n : Nat} {l : List UInt8} {stream : TokenStream}

theorem nextLine_eq_error (h : maxOffset < line + 1) : nextLine line = .error .overflow :=
  addOffset_eq_error_iff.2 ⟨rfl, h⟩

/-- A line feed is passed if the next line can be numbered. -/
theorem recognise_lineFeed (h : p.InText) (hr : p.remaining = lineFeed :: l) :
    recognise p line = do return ⟨.gap, p.moveTo (p.offset + 1), ← nextLine line⟩ := by
  have hlead : Lead.of lineFeed = .lineFeed := by decide
  rw [recognise, Position.byte_eq h, hr, (advance_one_eq h hr).1]
  simp only [List.head?_cons, Option.getD_some, bind, Except.bind, hlead]

namespace TokenStream

/-- A stream passes a line feed if the next line can be numbered. -/
theorem next_of_lineFeed (h : stream.position.InText)
    (hr : stream.position.remaining = lineFeed :: l) :
    stream.next = nextLine stream.line >>= fun line => next
      { stream with position := stream.position.moveTo (stream.position.offset + 1), line } := by
  have hs := @recognise_lineFeed _ stream.line _ h hr
  cases hline : nextLine stream.line with
  | error fault =>
    rw [hline] at hs
    exact next_of_error hs
  | ok line =>
    rw [hline] at hs
    exact next_of_none hs rfl

/-- With more line feeds in front of it than there are line numbers left, a stream has no next
token. -/
theorem next_of_lineFeeds (h : stream.position.InText)
    (hr : stream.position.remaining = List.replicate n lineFeed) (hle : stream.line ≤ maxOffset)
    (hlt : maxOffset < stream.line + n) : stream.next = .error .overflow := by
  induction n generalizing stream with
  | zero => omega
  | succ n ih =>
    rw [List.replicate_succ] at hr
    obtain ⟨-, hin, hrest⟩ := advance_one_eq h hr
    rw [next_of_lineFeed h hr]
    by_cases hline : stream.line + 1 ≤ maxOffset
    · rw [nextLine_eq hline]
      exact ih hin hrest hline (by show maxOffset < stream.line + 1 + n; omega)
    · rw [nextLine_eq_error (Nat.lt_of_not_le hline)]
      rfl

section Error

variable {fault : Fault}

theorem serve_of_error (h : stream.next = .error fault) (r : Request) :
    stream.serve r = .error fault := by
  cases r with
  | token | item =>
    rw [serve, h]
    rfl
  | items =>
    rw [serve, drain_of_error h]
    rfl

theorem scan_of_error (h : stream.next = .error fault) : stream.scan = .error fault := by
  rw [scan, drain_of_error h]
  rfl

end Error

/-! ## Lines that can be numbered -/

theorem Sound.line_le_of_mem (h : stream.Sound) {t : Token} (ht : t ∈ stream.pending) :
    t.line ≤ maxOffset := by
  have hline := h.line_le
  rcases mem_tokensOf ht with ⟨ps₁, s, ps₂, hps, -, -, -, hline'⟩ | ⟨-, -, -, hline'⟩
  · obtain ⟨b, rest, hsplit, -⟩ := pieces_eq_append_cons hps
    rw [hsplit, List.count_append] at hline
    omega
  · rw [flatMap_bytes_pieces] at hline'
    omega

end TokenStream

end Overflow

section Text

variable {text : String}

/-- From the start of a text of line feeds that is as long as a text may be, every request
faults. -/
theorem next_lineFeeds (comments : CommentMode) :
    ((Source.ofString (lineFeeds maxOffset)).tokens comments).next = .error .overflow := by
  have hsize := Nat.le_of_eq (utf8ByteSize_lineFeeds maxOffset)
  have hrest := remaining_start hsize
  rw [bytesOf_lineFeeds] at hrest
  exact TokenStream.next_of_lineFeeds (inText_start hsize) hrest
    (show 1 ≤ maxOffset by decide) (show maxOffset < 1 + maxOffset by omega)

/-- The lines of a text can be numbered unless it is the longest text of line feeds, which has no
token. -/
theorem tokenize_numbersLines (comments : CommentMode) (h : text.utf8ByteSize ≤ maxOffset) :
    (text ≠ lineFeeds maxOffset →
      (∃ tokens, tokenize text comments = .ok tokens ∧ ∀ t ∈ tokens, t.line ≤ maxOffset) ∧
      ∀ rs : List Request, ∃ as rest,
        ((Source.ofString text).tokens comments).serveAll rs = .ok (as, rest) ∧
        rest.line ≤ maxOffset ∧ ∀ t ∈ as.flatMap Answer.given, t.line ≤ maxOffset) ∧
    (text = lineFeeds maxOffset → tokenize text comments = .error .overflow ∧
      ∀ r : Request, ((Source.ofString text).tokens comments).serve r = .error .overflow) := by
  constructor
  · intro hne
    have hl : (Utf8.bytesOf text).count lineFeed < maxOffset :=
      Nat.lt_of_not_le fun hcount => hne (eq_lineFeeds h hcount)
    have hsound : ((Source.ofString text).tokens comments).Sound := sound_tokens h hl
    constructor
    · refine ⟨_, tokenize_eq h hl, fun t ht => hsound.line_le_of_mem ?_⟩
      rwa [pending_tokens h]
    · intro rs
      obtain ⟨as, rest, hrest, -, hserves⟩ := TokenStream.exists_serveAll hsound rs
      refine ⟨as, rest, hrest, Nat.le_of_add_right_le hserves.sound.line_le, fun t ht => ?_⟩
      exact hsound.line_le_of_mem (TokenStream.mem_pending_of_given hsound hrest hserves ht)
  · rintro rfl
    have hnext := next_lineFeeds comments
    refine ⟨?_, TokenStream.serve_of_error hnext⟩
    rw [tokenize, TokenStream.scan_of_error hnext]
    rfl

theorem tokenize_numbersLines_escaped :
    "\"\\\n\n\" // a\r\n\n".utf8ByteSize ≤ maxOffset ∧
      "\"\\\n\n\" // a\r\n\n" ≠ lineFeeds maxOffset ∧
      (∃ tokens, tokenize "\"\\\n\n\" // a\r\n\n" .discard = .ok tokens ∧
        ∀ t ∈ tokens, t.line ≤ maxOffset) ∧
      ∀ rs : List Request, ∃ as rest,
        ((Source.ofString "\"\\\n\n\" // a\r\n\n").tokens .discard).serveAll rs =
          .ok (as, rest) ∧
        rest.line ≤ maxOffset ∧ ∀ t ∈ as.flatMap Answer.given, t.line ≤ maxOffset := by
  have hne : "\"\\\n\n\" // a\r\n\n" ≠ lineFeeds maxOffset := by
    intro heq
    have hsize := congrArg String.utf8ByteSize heq
    rw [utf8ByteSize_lineFeeds] at hsize
    exact absurd hsize (by decide)
  exact ⟨by decide, hne, (tokenize_numbersLines .discard (by decide)).1 hne⟩

/-- The offsets of the longest text of line feeds can be counted, but not its lines. -/
theorem lineFeeds_overflow : (lineFeeds maxOffset).utf8ByteSize ≤ maxOffset ∧
    (Source.ofString (lineFeeds maxOffset)).length = maxOffset ∧
    ((Source.ofString (lineFeeds maxOffset)).tokens .retain).serve .item = .error .overflow := by
  have hsize := utf8ByteSize_lineFeeds maxOffset
  have hle := Nat.le_of_eq hsize
  exact ⟨hle, (Source.length_ofString hle).trans hsize,
    TokenStream.serve_of_error (next_lineFeeds .retain) .item⟩

end Text

end Ivy
