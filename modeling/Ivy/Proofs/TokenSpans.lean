import Ivy.Proofs.Mixtures
import Ivy.Proofs.Safety

/-!
# Spans within the source

Wherever in a text a stream is started, be it inside a character, all tokens that it gives lie
within the text, and its end mark stands at the end.  A stream that is started in the padding gives
nothing but end marks, and these stand where it was started, behind the text (`requests_within`).
-/

namespace Ivy

/-- Whether a token lies within a source, and stands at its end if it is the end mark. -/
structure Token.Within (t : Token) (src : Source) : Prop where
  start_le : t.start ≤ t.stop
  stop_le : t.stop ≤ src.length
  eof_eq : t.kind = .eof → t.start = src.length ∧ t.stop = src.length

namespace TokenStream

variable {stream rest : TokenStream}

/-- The tokens that are to come lie within the source. -/
theorem Sound.within (h : stream.Sound) {t : Token} (ht : t ∈ stream.pending) :
    t.Within stream.position.source := by
  have hlen := h.inText.length_remaining
  have hle := h.inText.offset_le
  rcases mem_tokensOf ht with
      ⟨ps₁, s, ps₂, hps, hkind, hstart, hstop, -⟩ | ⟨hkind, hstart, hstop, -⟩
  · obtain ⟨b, l, hsplit, rfl, -, -⟩ := pieces_eq_append_cons hps
    have hstarts := starts_pieceFrom b l
    have hpiece := hstarts.isPrefix.length_le
    rw [hsplit, List.length_append] at hlen
    exact
      { start_le := hstop ▸ Nat.le_add_right _ _
        stop_le := by omega
        eof_eq := fun heof => absurd (heof ▸ hkind) (hstarts.kind?_ne_eof _) }
  · rw [flatMap_bytes_pieces, hlen, Nat.add_sub_cancel' hle] at hstart
    exact
      { start_le := Nat.le_of_eq hstop.symm
        stop_le := Nat.le_of_eq (hstop.trans hstart)
        eof_eq := fun _ => ⟨hstart, hstop.trans hstart⟩ }

/-- What a sound stream gives lies within the source. -/
theorem Sound.exists_within (h : stream.Sound) (rs : List Request) : ∃ as rest sc,
    stream.serveAll rs = .ok (as, rest) ∧ rest.scan = .ok sc ∧
      ∀ t ∈ as.flatMap Answer.given ++ sc.tokens, t.Within stream.position.source := by
  obtain ⟨as, rest, hrest, -, hserves⟩ := exists_serveAll h rs
  obtain ⟨sc, hsc, htokens⟩ := exists_scan hserves.sound
  refine ⟨as, rest, sc, hrest, hsc, fun t ht => h.within ?_⟩
  rcases List.mem_append.1 ht with ht | ht
  · exact mem_pending_of_given h hrest hserves ht
  · rw [hserves.pending_eq]
    exact List.mem_append_right _ (htokens ▸ ht)

theorem given_answerAtEnd {r : Request} {eof t : Token} (ht : t ∈ (r.answerAtEnd eof).given) :
    t = eof := by
  cases r with
  | token => exact List.mem_singleton.1 ht
  | item | items => cases ht

/-- What a stream gives at its end is its end mark. -/
theorem AtEnd.exists_endMarks (h : stream.AtEnd) (rs : List Request) : ∃ as rest sc,
    stream.serveAll rs = .ok (as, rest) ∧ rest.scan = .ok sc ∧ sc.tokens = [stream.endMark] ∧
      ∀ t ∈ as.flatMap Answer.given ++ sc.tokens, t = stream.endMark := by
  refine ⟨_, _, _, serveAll_of_atEnd h rs, scan_of_atEnd h, rfl, fun t ht => ?_⟩
  rcases List.mem_append.1 ht with ht | ht
  · obtain ⟨a, ha, hta⟩ := List.mem_flatMap.1 ht
    obtain ⟨r, -, rfl⟩ := List.mem_map.1 ha
    exact given_answerAtEnd hta
  · exact List.mem_singleton.1 ht

end TokenStream

section Text

variable {text : String} {p : Position}

/-- From any position in the buffer of a text, all requests are served, and what they and a scan
give lies within the text exactly if the position does.  From the padding they give nothing but end
marks at the position. -/
theorem requests_within (comments : CommentMode) (h : text.utf8ByteSize < maxOffset)
    (hsource : p.source = Source.ofString text) (hp : p.offset < p.source.buffer.size)
    (rs : List Request) : ∃ as rest sc,
      (p.tokens comments).serveAll rs = .ok (as, rest) ∧ rest.scan = .ok sc ∧
      ((∀ t ∈ as.flatMap Answer.given ++ sc.tokens, t.Within p.source) ↔
        p.offset ≤ text.utf8ByteSize) ∧
      (text.utf8ByteSize < p.offset →
        ∀ t ∈ as.flatMap Answer.given ++ sc.tokens, t = ⟨.eof, p.offset, p.offset, 1⟩) := by
  have hsize := Nat.le_of_lt h
  have hlength : p.source.length = text.utf8ByteSize := by
    rw [hsource, Source.length_ofString hsize]
  by_cases hle : p.offset ≤ text.utf8ByteSize
  · have hsound := sound_tokens_of_le comments hsize (count_lineFeed_lt h) hsource hle
    obtain ⟨as, rest, sc, hrest, hsc, hwithin⟩ := hsound.exists_within rs
    exact ⟨as, rest, sc, hrest, hsc, iff_of_true hwithin hle, fun hlt => absurd hle (by omega)⟩
  · have hlt : p.source.length ≤ p.offset := by omega
    have hend : (p.tokens comments).AtEnd :=
      TokenStream.atEnd_of_length_le (hsource ▸ Source.wellLaid_ofString hsize) hlt hp
    obtain ⟨as, rest, sc, hrest, hsc, htokens, hmarks⟩ := hend.exists_endMarks rs
    refine ⟨as, rest, sc, hrest, hsc, iff_of_false (fun hwithin => hle ?_) hle, fun _ => hmarks⟩
    -- The end mark of the scan stands where the stream was started.
    have hmark := hwithin (p.tokens comments).endMark
      (List.mem_append_right _ (htokens ▸ List.mem_singleton_self _))
    exact hlength ▸ hmark.stop_le

theorem requests_within_character :
    "é\"".utf8ByteSize < maxOffset ∧
      ((Source.ofString "é\"").start.moveTo 1).source = Source.ofString "é\"" ∧
      1 < ((Source.ofString "é\"").start.moveTo 1).source.buffer.size ∧ ∃ as rest sc,
        (((Source.ofString "é\"").start.moveTo 1).tokens .discard).serveAll
          [.item, .token, .items, .token] = .ok (as, rest) ∧ rest.scan = .ok sc ∧
        ∀ t ∈ as.flatMap Answer.given ++ sc.tokens, t.Within (Source.ofString "é\"") := by
  refine ⟨by decide, rfl, by decide +kernel, ?_⟩
  obtain ⟨as, rest, sc, hrest, hsc, hwithin, -⟩ :=
    @requests_within "é\"" ((Source.ofString "é\"").start.moveTo 1) .discard (by decide) rfl
      (by decide +kernel) [.item, .token, .items, .token]
  exact ⟨as, rest, sc, hrest, hsc, hwithin.2 (by decide)⟩

/-- One byte behind the text "a" the next token is an end mark that does not lie within it. -/
theorem endMark_beyond_text : ∃ p q, (Source.ofString "a").start.advance 2 = .ok p ∧
    p.offset < p.source.buffer.size ∧ (p.tokens .retain).next = .ok q ∧
    q.token = ⟨.eof, 2, 2, 1⟩ ∧ ¬ q.token.Within p.source := by
  have hend : (((Source.ofString "a").start.moveTo 2).tokens .retain).AtEnd :=
    TokenStream.atEnd_of_length_le (Source.wellLaid_ofString (by decide)) (by decide +kernel)
      (by decide +kernel)
  refine ⟨_, _, rfl, by decide +kernel, TokenStream.next_of_atEnd hend, rfl, fun hwithin => ?_⟩
  exact absurd hwithin.stop_le (by decide +kernel)

end Text

end Ivy
