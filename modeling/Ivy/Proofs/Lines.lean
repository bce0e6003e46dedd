import Ivy.Proofs.Requests

/-!
# Line numbers

The line of a token, the end mark included, is one more than the number of line feeds in front of
it, and so is, after any run of requests, the line of a stream that was started at the first byte of
a text (`tokenize_line`).
-/

namespace Ivy

variable {text : String}

/-- The number of the line of the byte at `offset`. -/
def lineAt (text : String) (offset : Nat) : Nat :=
  1 + ((Utf8.bytesOf text).take offset).count lineFeed

theorem line_eq_of_mem {comments : CommentMode} {t : Token}
    (h : t ∈ tokensOf comments 0 1 (pieces (Utf8.bytesOf text))) :
    t.line = lineAt text t.start := by
  rcases heads_of_mem h (Utf8.isText_bytesOf text) with ⟨b, rest, hheads⟩ | rfl
  · exact hheads.line_eq
  · rw [lineAt, List.take_length]

/-- The line feeds in front of a stream and those left make up all. -/
theorem TokenStream.Serves.line_eq {comments : CommentMode} {as : List Answer}
    {rest : TokenStream} (h : ((Source.ofString text).tokens comments).Serves as rest)
    (hsize : text.utf8ByteSize ≤ maxOffset) : rest.line = lineAt text rest.position.offset := by
  have hremaining := remaining_of_source hsize h.source_eq
  have hcount := congrArg (List.count lineFeed)
    (List.take_append_drop rest.position.offset (Utf8.bytesOf text))
  have hline : rest.line + rest.position.remaining.count lineFeed =
      1 + (Source.ofString text).start.remaining.count lineFeed := h.line_add
  rw [List.count_append] at hcount
  rw [hremaining, remaining_start hsize, ← hcount] at hline
  rw [lineAt]
  omega

/-- Tokens and streams know their lines. -/
theorem tokenize_line (comments : CommentMode) (h : text.utf8ByteSize ≤ maxOffset)
    (hl : (Utf8.bytesOf text).count lineFeed < maxOffset) :
    (∃ tokens, tokenize text comments = .ok tokens ∧
      ∀ t ∈ tokens, t.line = lineAt text t.start) ∧
    ∀ rs : List Request, ∃ as rest,
      ((Source.ofString text).tokens comments).serveAll rs = .ok (as, rest) ∧
        rest.line = lineAt text rest.position.offset := by
  constructor
  · exact ⟨_, tokenize_eq h hl, fun t ht => line_eq_of_mem ht⟩
  · intro rs
    have hsound : ((Source.ofString text).tokens comments).Sound := sound_tokens h hl
    obtain ⟨as, rest, hrest, -, hserves⟩ := TokenStream.exists_serveAll hsound rs
    exact ⟨as, rest, hrest, hserves.line_eq h⟩

theorem tokenize_line_string :
    "\"a\\\n\r\n\" // b\r\nc".utf8ByteSize ≤ maxOffset ∧
      (Utf8.bytesOf "\"a\\\n\r\n\" // b\r\nc").count lineFeed < maxOffset ∧
      (∃ tokens, tokenize "\"a\\\n\r\n\" // b\r\nc" .discard = .ok tokens ∧
        ∀ t ∈ tokens, t.line = lineAt "\"a\\\n\r\n\" // b\r\nc" t.start) ∧
      ∀ rs : List Request, ∃ as rest,
        ((Source.ofString "\"a\\\n\r\n\" // b\r\nc").tokens .discard).serveAll rs =
          .ok (as, rest) ∧ rest.line = lineAt "\"a\\\n\r\n\" // b\r\nc" rest.position.offset :=
  ⟨by decide, by decide, tokenize_line .discard (by decide) (by decide)⟩

end Ivy
