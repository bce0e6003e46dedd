import Ivy.Proofs.Invariants
import Ivy.Proofs.Lines
import Ivy.Proofs.Safety
import Ivy.Proofs.TokenLists

/-!
# Relocation

A stream keeps nothing in mind but its position and its line.  From any position between two
characters it gives the tokens of the rest of the text, as a text of its own, moved to where the
rest starts, and so does a stream that has served requests (`tokenize_sliceFrom`).
-/

namespace Ivy

namespace TokenStream

/-- Whether a stream gives `tokens`, the end mark included: part of them in answer to requests,
whatever these are, and the others when it is drained then. -/
def Gives (stream : TokenStream) (tokens : List Token) : Prop :=
  ∀ rs : List Request, ∃ as rest sc, stream.serveAll rs = .ok (as, rest) ∧
    rest.scan = .ok sc ∧ as.flatMap Answer.tokens ++ sc.tokens = tokens

theorem Sound.gives {stream : TokenStream} (h : stream.Sound) : stream.Gives stream.pending := by
  intro rs
  obtain ⟨as, rest, hrest, -, hserves⟩ := exists_serveAll h rs
  obtain ⟨sc, hsc, htokens⟩ := exists_scan hserves.sound
  exact ⟨as, rest, sc, hrest, hsc, by rw [htokens, hserves.pending_eq]⟩

end TokenStream

section Text

variable {text : String}

/-- A sound stream gives the tokens of the rest of its text, moved to where the rest starts. -/
theorem TokenStream.Sound.gives_sliceFrom {stream : TokenStream} (hs : stream.Sound)
    (h : text.utf8ByteSize < maxOffset) (hsource : stream.position.source = Source.ofString text)
    (hline : 1 ≤ stream.line) {q : text.Pos} (hq : q.offset.byteIdx = stream.position.offset) :
    ∃ tokens, tokenize (text.sliceFrom q).copy stream.comments = .ok tokens ∧
      stream.Gives (tokens.map (Token.shift stream.position.offset (stream.line - 1))) := by
  have hsize := Nat.lt_of_le_of_lt (utf8ByteSize_sliceFrom_le q) h
  have hremaining : stream.position.remaining = Utf8.bytesOf (text.sliceFrom q).copy := by
    rw [remaining_of_source (Nat.le_of_lt h) hsource, bytesOf_sliceFrom, hq]
  refine ⟨_, tokenize_of_lt hsize, ?_⟩
  rw [← hremaining, ← tokensOf_shift, Nat.zero_add, Nat.add_sub_cancel' hline]
  exact hs.gives

/-- A text is cut up from any position on as the rest of it is, and after any run of requests. -/
theorem tokenize_sliceFrom (comments : CommentMode) (h : text.utf8ByteSize < maxOffset) :
    (∀ q : text.Pos, ∃ p tokens,
      (Source.ofString text).start.advance q.offset.byteIdx = .ok p ∧
      tokenize (text.sliceFrom q).copy comments = .ok tokens ∧
      (p.tokens comments).Gives (tokens.map (Token.shift q.offset.byteIdx 0))) ∧
    ∀ rs : List Request, ∃ as rest, ∃ q : text.Pos, ∃ tokens,
      ((Source.ofString text).tokens comments).serveAll rs = .ok (as, rest) ∧
      q.offset.byteIdx = rest.position.offset ∧
      tokenize (text.sliceFrom q).copy comments = .ok tokens ∧
      rest.Gives (tokens.map (Token.shift rest.position.offset (rest.line - 1))) := by
  have hsize := Nat.le_of_lt h
  have hlines := count_lineFeed_lt h
  constructor
  · intro q
    obtain ⟨p, hp, hoffset, hsource, hsound⟩ :=
      sound_tokens_advance comments hsize hlines q.isValid.le_utf8ByteSize
    obtain ⟨tokens, htokens, hgives⟩ :=
      hsound.gives_sliceFrom h hsource (Nat.le_refl 1) hoffset.symm
    exact ⟨p, tokens, hp, htokens, hoffset ▸ hgives⟩
  · intro rs
    have haligned := aligned_tokens comments hsize hlines
    obtain ⟨as, rest, hrest, -, hserves⟩ := TokenStream.exists_serveAll haligned.toSound rs
    have halignedRest := TokenStream.serveAll_preserves TokenStream.aligned_preserved hrest haligned
    have hsource : rest.position.source = Source.ofString text := hserves.source_eq
    have hcomments : rest.comments = comments := hserves.comments_eq
    have hoffset := hserves.sound.inText.offset_le
    have htext := halignedRest.isText
    rw [hsource, Source.length_ofString hsize] at hoffset
    rw [Position.remaining, hsource, Source.content_ofString hsize] at htext
    obtain ⟨q, hq⟩ := exists_pos hoffset htext
    have hline : 1 ≤ rest.line := by
      rw [hserves.line_eq hsize]
      exact Nat.le_add_right _ _
    obtain ⟨tokens, htokens, hgives⟩ := hserves.sound.gives_sliceFrom h hsource hline hq
    exact ⟨as, rest, q, tokens, hrest, hq, hcomments ▸ htokens, hgives⟩

theorem tokenize_sliceFrom_comment : "a // é\r\n\"b\nc".utf8ByteSize < maxOffset ∧
    (∀ q : String.Pos "a // é\r\n\"b\nc", ∃ p tokens,
      (Source.ofString "a // é\r\n\"b\nc").start.advance q.offset.byteIdx = .ok p ∧
      tokenize (String.sliceFrom "a // é\r\n\"b\nc" q).copy .discard = .ok tokens ∧
      (p.tokens .discard).Gives (tokens.map (Token.shift q.offset.byteIdx 0))) ∧
    ∀ rs : List Request, ∃ as rest, ∃ q : String.Pos "a // é\r\n\"b\nc", ∃ tokens,
      ((Source.ofString "a // é\r\n\"b\nc").tokens .discard).serveAll rs = .ok (as, rest) ∧
      q.offset.byteIdx = rest.position.offset ∧
      tokenize (String.sliceFrom "a // é\r\n\"b\nc" q).copy .discard = .ok tokens ∧
      rest.Gives (tokens.map (Token.shift rest.position.offset (rest.line - 1))) :=
  ⟨by decide, tokenize_sliceFrom .discard (by decide)⟩

end Text

end Ivy
