import Ivy.Proofs.Requests

/-!
# Requests in any mixture

However the three requests are mixed, a stream gives its tokens in order, each of them once, and a
scan gives those that are left.  A stream that has come to its end stays there, with the same
answer to every further request (`TokenStream.serveAll_of_nil`).  Both together are
`requests_agree`.
-/

namespace Ivy

/-- The answer to a request at the end of a source, where the end mark is `eof`. -/
def Request.answerAtEnd (eof : Token) : Request → Answer
  | .token => .token eof
  | .item => .item none
  | .items => .items []

/-- The tokens of an answer, the end mark included. -/
def Answer.given : Answer → List Token
  | .token t => [t]
  | .item t? => t?.toList
  | .items ts => ts

namespace TokenStream

variable {stream rest : TokenStream}

/-! ## At the end -/

/-- Whether a stream finds the end of its source where it stands. -/
def AtEnd (stream : TokenStream) : Prop :=
  recognise stream.position stream.line = .ok ⟨.finish, stream.position, stream.line⟩

section AtEnd

/-- The end mark does not move a stream. -/
theorem next_of_atEnd (h : stream.AtEnd) : stream.next = .ok ⟨stream.endMark, stream, none⟩ :=
  next_of_some h rfl (Nat.le_refl _)

theorem drain_of_atEnd (h : stream.AtEnd) :
    stream.drain = .ok ⟨[], stream.endMark, stream, []⟩ := drain_of_eof (next_of_atEnd h) rfl

theorem serve_of_atEnd (h : stream.AtEnd) (r : Request) :
    stream.serve r = .ok (r.answerAtEnd stream.endMark, stream) := by
  cases r with
  | token | item =>
    rw [serve, next_of_atEnd h]
    rfl
  | items =>
    rw [serve, drain_of_atEnd h]
    rfl

/-- At its end a stream answers all requests alike and stays where it is. -/
theorem serveAll_of_atEnd (h : stream.AtEnd) (rs : List Request) :
    stream.serveAll rs = .ok (rs.map (·.answerAtEnd stream.endMark), stream) := by
  induction rs with
  | nil => rfl
  | cons r rs ih =>
    rw [serveAll, serve_of_atEnd h]
    simp only [bind, Except.bind, ih]
    rfl

/-- A stream is at its end behind its text, also in the padding. -/
theorem atEnd_of_length_le (h : stream.position.source.WellLaid)
    (hle : stream.position.source.length ≤ stream.position.offset)
    (hlt : stream.position.offset < stream.position.source.buffer.size) : stream.AtEnd := by
  have hbyte : stream.position.byte = .ok 0 :=
    Source.read_eq_ok_iff.2 ⟨hlt, h.byteAt_eq_zero _ hle⟩
  have hend : stream.position.atEnd = true := decide_eq_true hle
  have hzero : Lead.of 0 = .zero := by decide
  rw [AtEnd, recognise, hbyte, bind_eq_ok_iff]
  refine ⟨0, rfl, ?_⟩
  rw [hzero, hend]
  rfl

theorem Sound.atEnd (h : stream.Sound) (hr : stream.position.remaining = []) : stream.AtEnd := by
  have hoffset := h.inText.offset_eq hr
  exact atEnd_of_length_le h.inText.wellLaid (Nat.le_of_eq hoffset.symm)
    (hoffset ▸ h.inText.wellLaid.length_lt)

theorem scan_of_atEnd (h : stream.AtEnd) : stream.scan =
    .ok ⟨[stream.endMark], [.scanComplete 1 0 stream.line]⟩ := by
  rw [scan, drain_of_atEnd h]
  rfl

theorem serveAll_of_nil (h : stream.Sound) (hr : stream.position.remaining = [])
    (rs : List Request) :
    stream.serveAll rs = .ok (rs.map (·.answerAtEnd stream.endMark), stream) :=
  serveAll_of_atEnd (h.atEnd hr) rs

end AtEnd

/-! ## What is answered -/

section Answers

variable {r : Request} {rs : List Request} {a : Answer} {as : List Answer} {t : Token}

/-- A request for a token is answered with one that was to come, be it the end mark. -/
theorem mem_pending_of_serve (h : stream.Sound) (hr : stream.serve r = .ok (.token t, rest)) :
    t ∈ stream.pending := by
  cases r with
  | token =>
    obtain ⟨p, hp, htakes⟩ := exists_next h
    rw [serve, hp] at hr
    cases hr
    rcases htakes.pending_eq with ⟨-, -, hpending⟩ | ⟨-, hpending, -⟩
    · rw [hpending]
      exact List.mem_singleton_self _
    · rw [hpending]
      exact List.mem_cons_self
  | item | items =>
    simp only [serve, bind_eq_ok_iff, pure_eq_ok_iff, Prod.mk.injEq, reduceCtorEq, false_and,
      and_false, exists_false] at hr

theorem mem_pending_of_serveAll (h : stream.Sound) (hrs : stream.serveAll rs = .ok (as, rest))
    (ht : .token t ∈ as) : t ∈ stream.pending := by
  induction rs generalizing stream as with
  | nil =>
    cases hrs
    cases ht
  | cons r rs ih =>
    simp only [serveAll, bind_eq_ok_iff, pure_eq_ok_iff, Prod.mk.injEq] at hrs
    obtain ⟨⟨a, mid⟩, hr, ⟨as', rest'⟩, hrs, rfl, rfl⟩ := hrs
    obtain ⟨a', mid', hr', hserves⟩ := exists_serve h r
    cases hr.symm.trans hr'
    rcases List.mem_cons.1 ht with rfl | ht
    · exact mem_pending_of_serve h hr
    · rw [hserves.pending_eq]
      exact List.mem_append_right _ (ih hserves.sound hrs ht)

/-- Requests are answered with tokens that were to come. -/
theorem mem_pending_of_given (h : stream.Sound) (hrs : stream.serveAll rs = .ok (as, rest))
    (hserves : stream.Serves as rest) (ht : t ∈ as.flatMap Answer.given) :
    t ∈ stream.pending := by
  obtain ⟨a, ha, hta⟩ := List.mem_flatMap.1 ht
  cases a with
  | token t' =>
    cases List.mem_singleton.1 hta
    exact mem_pending_of_serveAll h hrs ha
  | item | items =>
    rw [hserves.pending_eq]
    exact List.mem_append_left _ (List.mem_flatMap.2 ⟨_, ha, hta⟩)

/-- To give all tokens that are left is to come to the end. -/
theorem meetsEnd_of_items_mem (hrs : stream.serveAll rs = .ok (as, rest)) (hr : .items ∈ rs) :
    ∃ a ∈ as, a.meetsEnd = true := by
  induction rs generalizing stream as with
  | nil => cases hr
  | cons r rs ih =>
    simp only [serveAll, bind_eq_ok_iff, pure_eq_ok_iff, Prod.mk.injEq] at hrs
    obtain ⟨⟨a, mid⟩, hserve, ⟨as', rest'⟩, hrs, rfl, rfl⟩ := hrs
    rcases List.mem_cons.1 hr with rfl | hr
    · simp only [serve, bind_eq_ok_iff, pure_eq_ok_iff, Prod.mk.injEq] at hserve
      obtain ⟨d, -, rfl, -⟩ := hserve
      exact ⟨_, List.mem_cons_self, rfl⟩
    · obtain ⟨a', ha', hend⟩ := ih hrs hr
      exact ⟨a', List.mem_cons_of_mem a ha', hend⟩

end Answers

/-! ## What is left -/

namespace Serves

variable {as : List Answer} {ts : List Token} {eof : Token}

/-- Behind requests a scan gives the tokens that they have not been given, and the end mark. -/
theorem exists_scan (h : stream.Serves as rest) (hpending : stream.pending = ts ++ [eof]) :
    ∃ sc us, rest.scan = .ok sc ∧ sc.tokens = us ++ [eof] ∧
      as.flatMap Answer.tokens ++ us = ts := by
  obtain ⟨sc, hsc, htokens⟩ := TokenStream.exists_scan h.sound
  obtain ⟨us, hus, -, -⟩ := exists_tokensOf_eq rest.comments rest.position.offset rest.line
    rest.position.remaining
  have hsplit := h.pending_eq
  rw [hpending, pending, hus, ← List.append_assoc] at hsplit
  obtain ⟨hts, heof⟩ := List.append_inj' hsplit rfl
  rw [← heof] at hus
  exact ⟨sc, us, hsc, htokens.trans hus, hts.symm⟩

/-- Requests that come to the end have been given all tokens in front of the end mark. -/
theorem eq_of_remaining (h : stream.Serves as rest) (hpending : stream.pending = ts ++ [eof])
    (hr : rest.position.remaining = []) :
    as.flatMap Answer.tokens = ts ∧ rest.endMark = eof := by
  have hsplit := h.pending_eq
  rw [hpending, pending_of_nil hr] at hsplit
  obtain ⟨hts, heof⟩ := List.append_inj' hsplit rfl
  exact ⟨hts.symm, (List.singleton_inj.1 heof).symm⟩

end Serves

end TokenStream

/-! ## Streams of a text -/

section Text

variable {text : String}

/-- Requests in any mixture give the tokens of a text in order, and a scan gives the others.  Once
the end has been met, it is met again by every request, and nothing changes. -/
theorem requests_agree (comments : CommentMode) (h : text.utf8ByteSize ≤ maxOffset)
    (hl : (Utf8.bytesOf text).count lineFeed < maxOffset) :
    ∃ ts eof, tokenize text comments = .ok (ts ++ [eof]) ∧ eof.kind = .eof ∧
      (∀ t ∈ ts, t.kind ≠ .eof) ∧ ∀ rs : List Request, ∃ as rest sc us,
        ((Source.ofString text).tokens comments).serveAll rs = .ok (as, rest) ∧
        as.length = rs.length ∧ rest.scan = .ok sc ∧ sc.tokens = us ++ [eof] ∧
        as.flatMap Answer.tokens ++ us = ts ∧
        (∀ t, .token t ∈ as → t.kind = .eof → t = eof) ∧
        (.items ∈ rs → ∃ a ∈ as, a.meetsEnd = true) ∧
        ((∃ a ∈ as, a.meetsEnd = true) → us = [] ∧ ∀ rs' : List Request,
          rest.serveAll rs' = .ok (rs'.map (·.answerAtEnd eof), rest)) := by
  have hsound : ((Source.ofString text).tokens comments).Sound := sound_tokens h hl
  obtain ⟨ts, hts, hne, -⟩ := exists_tokensOf_eq comments 0 1 (Utf8.bytesOf text)
  have hpending : ((Source.ofString text).tokens comments).pending = ts ++ [_] :=
    (pending_tokens h).trans hts
  refine ⟨ts, _, (tokenize_eq h hl).trans (congrArg Except.ok hts), rfl, hne, fun rs => ?_⟩
  obtain ⟨as, rest, hrest, hlen, hserves⟩ := TokenStream.exists_serveAll hsound rs
  obtain ⟨sc, us, hsc, htokens, hus⟩ := hserves.exists_scan hpending
  refine ⟨as, rest, sc, us, hrest, hlen, hsc, htokens, hus, ?_,
    TokenStream.meetsEnd_of_items_mem hrest, fun hend => ?_⟩
  · intro t ht hkind
    have hmem := TokenStream.mem_pending_of_serveAll hsound hrest ht
    rw [hpending] at hmem
    rcases List.mem_append.1 hmem with hmem | hmem
    · exact absurd hkind (hne t hmem)
    · exact List.mem_singleton.1 hmem
  · have hremaining := hserves.remaining_eq hend
    obtain ⟨hgiven, heof⟩ := hserves.eq_of_remaining hpending hremaining
    rw [← heof]
    rw [← hgiven] at hus
    exact ⟨List.append_right_eq_self.1 hus,
      TokenStream.serveAll_of_nil hserves.sound hremaining⟩

theorem requests_agree_discard :
    "a // b\n\"c".utf8ByteSize ≤ maxOffset ∧
      (Utf8.bytesOf "a // b\n\"c").count lineFeed < maxOffset ∧
      ∃ ts eof, tokenize "a // b\n\"c" .discard = .ok (ts ++ [eof]) ∧ eof.kind = .eof ∧
        (∀ t ∈ ts, t.kind ≠ .eof) ∧ ∀ rs : List Request, ∃ as rest sc us,
          ((Source.ofString "a // b\n\"c").tokens .discard).serveAll rs = .ok (as, rest) ∧
          as.length = rs.length ∧ rest.scan = .ok sc ∧ sc.tokens = us ++ [eof] ∧
          as.flatMap Answer.tokens ++ us = ts ∧
          (∀ t, .token t ∈ as → t.kind = .eof → t = eof) ∧
          (.items ∈ rs → ∃ a ∈ as, a.meetsEnd = true) ∧
          ((∃ a ∈ as, a.meetsEnd = true) → us = [] ∧ ∀ rs' : List Request,
            rest.serveAll rs' = .ok (rs'.map (·.answerAtEnd eof), rest)) :=
  ⟨by decide, by decide, requests_agree .discard (by decide) (by decide)⟩

end Text

end Ivy
