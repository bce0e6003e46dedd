import Ivy.Proofs.Requests

/-!
# Safety and termination

From any offset of a text on, also inside a character, a stream serves every run of requests without
fault.  A request that gives a token moves it on, and it is at its end after as many requests as
there are bytes left and one more (`requests_succeed`).
-/

namespace Ivy

variable {text : String} {skip : Nat}

/-- A stream may be started at any position in a text. -/
theorem sound_tokens_of_le {p : Position} (comments : CommentMode)
    (h : text.utf8ByteSize ≤ maxOffset) (hl : (Utf8.bytesOf text).count lineFeed < maxOffset)
    (hsource : p.source = Source.ofString text) (hp : p.offset ≤ text.utf8ByteSize) :
    (p.tokens comments).Sound where
  inText := inText_of_source h hsource hp
  line_le := by
    have hcount := (List.drop_sublist p.offset (Utf8.bytesOf text)).count_le lineFeed
    show 1 + p.remaining.count lineFeed ≤ maxOffset
    rw [remaining_of_source h hsource]
    omega

theorem sound_tokens_advance (comments : CommentMode) (h : text.utf8ByteSize ≤ maxOffset)
    (hl : (Utf8.bytesOf text).count lineFeed < maxOffset) (hskip : skip ≤ text.utf8ByteSize) :
    ∃ p, (Source.ofString text).start.advance skip = .ok p ∧ p.offset = skip ∧
      p.source = Source.ofString text ∧ (p.tokens comments).Sound := by
  have hlen : skip ≤ (Source.ofString text).start.remaining.length := by
    rw [remaining_start h, Utf8.length_bytesOf]
    exact hskip
  exact ⟨_, Position.advance_eq (inText_start h) hlen, Nat.zero_add skip, rfl,
    sound_tokens_of_le comments h hl rfl ((Nat.zero_add skip).symm ▸ hskip)⟩

/-- Every run of requests is served, and one that is long enough comes to the end. -/
theorem requests_succeed (comments : CommentMode) (h : text.utf8ByteSize ≤ maxOffset)
    (hl : (Utf8.bytesOf text).count lineFeed < maxOffset) (hskip : skip ≤ text.utf8ByteSize) :
    ∃ p, (Source.ofString text).start.advance skip = .ok p ∧ p.offset = skip ∧
      ∀ rs : List Request, ∃ as rest, (p.tokens comments).serveAll rs = .ok (as, rest) ∧
        as.length = rs.length ∧ rest.position.offset ≤ text.utf8ByteSize ∧
        (∃ sc ts eof, rest.scan = .ok sc ∧ sc.tokens = ts ++ [eof] ∧ eof.kind = .eof ∧
          (∀ t ∈ ts, t.kind ≠ .eof) ∧
          ts.length ≤ text.utf8ByteSize - rest.position.offset) ∧
        (∀ r, ∃ a rest', rest.serve r = .ok (a, rest') ∧
          (a.tokens ≠ [] → rest.position.offset < rest'.position.offset) ∧
          rest'.position.offset ≤ text.utf8ByteSize) ∧
        (text.utf8ByteSize - skip < rs.length → ∃ a ∈ as, a.meetsEnd = true) := by
  obtain ⟨p, hp, hoffset, hsource, hsound⟩ := sound_tokens_advance comments h hl hskip
  refine ⟨p, hp, hoffset, fun rs => ?_⟩
  obtain ⟨as, rest, hrest, hlen, hserves⟩ := TokenStream.exists_serveAll hsound rs
  have hlength : p.source.length = text.utf8ByteSize := by
    rw [hsource, Source.length_ofString h]
  have inText {stream : TokenStream} (hs : stream.Sound)
      (hsrc : stream.position.source = p.source) :
      stream.position.offset ≤ text.utf8ByteSize := by
    have hle := hs.inText.offset_le
    rwa [hsrc, hlength] at hle
  have hle := inText hserves.sound hserves.source_eq
  refine ⟨as, rest, hrest, hlen, hle, ?_, fun r => ?_, fun hlong => ?_⟩
  · obtain ⟨sc, hsc, htokens⟩ := TokenStream.exists_scan hserves.sound
    obtain ⟨ts, hts, hne, hlen⟩ := exists_tokensOf_eq rest.comments rest.position.offset rest.line
      rest.position.remaining
    rw [hserves.sound.inText.length_remaining, hserves.source_eq] at hlen
    exact ⟨sc, ts, _, hsc, htokens.trans hts, rfl, hne, hlength ▸ hlen⟩
  · obtain ⟨a, rest', hrest', hserves'⟩ := TokenStream.exists_serve hserves.sound r
    refine ⟨a, rest', hrest', fun hne => hserves'.offset_lt ?_,
      inText hserves'.sound (hserves'.source_eq.trans hserves.source_eq)⟩
    rwa [List.flatMap_singleton]
  -- Requests that do not come to the end take up a byte each.
  · apply Decidable.byContradiction
    intro hnone
    have hall : ∀ a ∈ as, a.meetsEnd = false := by
      intro a ha
      rw [← Bool.not_eq_true]
      exact fun hend => hnone ⟨a, ha, hend⟩
    have hprogress := hserves.progress hall
    change p.offset + as.length ≤ _ at hprogress
    omega

theorem requests_succeed_inside :
    "\"é".utf8ByteSize ≤ maxOffset ∧ (Utf8.bytesOf "\"é").count lineFeed < maxOffset ∧
      2 ≤ "\"é".utf8ByteSize ∧
      ∃ p, (Source.ofString "\"é").start.advance 2 = .ok p ∧ p.offset = 2 ∧
        ∀ rs : List Request, ∃ as rest, (p.tokens .retain).serveAll rs = .ok (as, rest) ∧
          as.length = rs.length ∧ rest.position.offset ≤ "\"é".utf8ByteSize ∧
          (∃ sc ts eof, rest.scan = .ok sc ∧ sc.tokens = ts ++ [eof] ∧ eof.kind = .eof ∧
            (∀ t ∈ ts, t.kind ≠ .eof) ∧
            ts.length ≤ "\"é".utf8ByteSize - rest.position.offset) ∧
          (∀ r, ∃ a rest', rest.serve r = .ok (a, rest') ∧
            (a.tokens ≠ [] → rest.position.offset < rest'.position.offset) ∧
            rest'.position.offset ≤ "\"é".utf8ByteSize) ∧
          ("\"é".utf8ByteSize - 2 < rs.length → ∃ a ∈ as, a.meetsEnd = true) :=
  ⟨by decide, by decide, by decide, requests_succeed .retain (by decide) (by decide) (by decide)⟩

end Ivy
