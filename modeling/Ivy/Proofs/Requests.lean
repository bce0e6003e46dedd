import Ivy.Proofs.PieceStream

/-!
# Requests to a stream

The users of a stream ask it for one token, the end mark included, for one token before the end
mark, or for all of those that are left.  `TokenStream.serveAll` serves requests one after another.
What a sound stream answers, and where it stands then, is told by `TokenStream.Serves`: one request
is served so (`exists_serve`), and with it every run of requests (`exists_serveAll`).  Requests for
one token each bring the stream in front of any token that it has to give (`exists_next_behind`).
-/

namespace Ivy

/-- What a stream is asked for. -/
inductive Request
  /-- The next token. -/
  | token
  /-- The next token that is not the end mark. -/
  | item
  /-- All tokens before the end mark. -/
  | items
deriving DecidableEq

/-- What a stream answers. -/
inductive Answer
  | token (t : Token)
  | item (t? : Option Token)
  | items (ts : List Token)
deriving DecidableEq

/-- The tokens of an answer, the end mark left out. -/
def Answer.tokens : Answer → List Token
  | .token t => if t.isEof then [] else [t]
  | .item t? => t?.toList
  | .items ts => ts

/-- Whether an answer tells that the stream is at its end. -/
def Answer.meetsEnd : Answer → Bool
  | .token t => t.isEof
  | .item t? => t?.isNone
  | .items _ => true

namespace TokenStream

/-- Serves a request. -/
def serve (stream : TokenStream) : Request → Except Fault (Answer × TokenStream)
  | .token => do
    let p ← stream.next
    return (.token p.token, p.rest)
  | .item => do
    let p ← stream.next
    return (.item p.token?, p.rest)
  | .items => do
    let d ← stream.drain
    return (.items d.tokens, d.rest)

/-- Serves requests one after the other. -/
def serveAll (stream : TokenStream) : List Request → Except Fault (List Answer × TokenStream)
  | [] => .ok ([], stream)
  | r :: rs => do
    let (answer, stream) ← stream.serve r
    let (answers, stream) ← stream.serveAll rs
    return (answer :: answers, stream)

/-- Whether a stream that has given `answers` stands at `rest`. -/
structure Serves (stream : TokenStream) (answers : List Answer) (rest : TokenStream) : Prop where
  sound : rest.Sound
  source_eq : rest.position.source = stream.position.source
  comments_eq : rest.comments = stream.comments
  /-- The line feeds that are left and those counted make up all. -/
  line_add : rest.line + rest.position.remaining.count lineFeed =
    stream.line + stream.position.remaining.count lineFeed
  offset_le : stream.position.offset ≤ rest.position.offset
  /-- The tokens that are left and those given make up all. -/
  pending_eq : stream.pending = answers.flatMap Answer.tokens ++ rest.pending
  progress : (∀ a ∈ answers, a.meetsEnd = false) →
    stream.position.offset + answers.length ≤ rest.position.offset
  remaining_eq : (∃ a ∈ answers, a.meetsEnd = true) → rest.position.remaining = []

namespace Serves

variable {stream mid rest : TokenStream} {as bs : List Answer}

theorem refl (h : stream.Sound) : stream.Serves [] stream where
  sound := h
  source_eq := rfl
  comments_eq := rfl
  line_add := rfl
  offset_le := Nat.le_refl _
  pending_eq := rfl
  progress _ := Nat.le_refl _
  remaining_eq := by
    rintro ⟨a, ha, -⟩
    cases ha

/-- A stream that has come to its end stays there. -/
theorem remaining_eq_nil (h : stream.Serves as rest) (hr : stream.position.remaining = [])
    (hs : stream.Sound) : rest.position.remaining = [] := by
  have hle := h.sound.inText.offset_le
  have hlen := h.sound.inText.length_remaining
  have := hs.inText.offset_eq hr
  have := h.offset_le
  rw [h.source_eq] at hle hlen
  exact List.eq_nil_of_length_eq_zero (by omega)

theorem trans (h₁ : stream.Serves as mid) (h₂ : mid.Serves bs rest) :
    stream.Serves (as ++ bs) rest where
  sound := h₂.sound
  source_eq := h₂.source_eq.trans h₁.source_eq
  comments_eq := h₂.comments_eq.trans h₁.comments_eq
  line_add := h₂.line_add.trans h₁.line_add
  offset_le := Nat.le_trans h₁.offset_le h₂.offset_le
  pending_eq := by
    rw [h₁.pending_eq, h₂.pending_eq, List.flatMap_append, List.append_assoc]
  progress hall := by
    have := h₁.progress fun a ha => hall a (List.mem_append_left bs ha)
    have := h₂.progress fun a ha => hall a (List.mem_append_right as ha)
    rw [List.length_append]
    omega
  remaining_eq := by
    rintro ⟨a, ha, hend⟩
    rcases List.mem_append.1 ha with ha | ha
    · exact h₂.remaining_eq_nil (h₁.remaining_eq ⟨a, ha, hend⟩) h₁.sound
    · exact h₂.remaining_eq ⟨a, ha, hend⟩

/-- A stream that stands where it stood has given no token. -/
theorem offset_lt (h : stream.Serves as rest) (hne : as.flatMap Answer.tokens ≠ []) :
    stream.position.offset < rest.position.offset := by
  apply Nat.lt_of_le_of_ne h.offset_le
  intro heq
  have hremaining : rest.position.remaining = stream.position.remaining := by
    rw [Position.remaining, Position.remaining, h.source_eq, heq]
  have hline := h.line_add
  rw [hremaining] at hline
  have hpending : rest.pending = stream.pending := by
    rw [pending, pending, hremaining, h.comments_eq, heq, Nat.add_right_cancel hline]
  have happend := h.pending_eq
  rw [hpending] at happend
  exact hne (List.self_eq_append_left.1 happend)

end Serves

/-! ## One request -/

section Serve

variable {stream rest : TokenStream}

/-- At the end of its source a stream stands behind every place of it. -/
theorem offset_le_of_nil (hs : stream.Sound) (hrest : rest.Sound)
    (hsource : rest.position.source = stream.position.source)
    (hr : rest.position.remaining = []) : stream.position.offset ≤ rest.position.offset := by
  rw [hrest.inText.offset_eq hr, hsource]
  exact hs.inText.offset_le

/-- A pull serves a request that is answered with its token. -/
theorem Pull.Takes.serves {p : Pull} {a : Answer} (h : p.Takes stream) (hs : stream.Sound)
    (htokens : a.tokens = if p.token.isEof then [] else [p.token])
    (hend : a.meetsEnd = p.token.isEof) : stream.Serves [a] p.rest := by
  have hflat : [a].flatMap Answer.tokens = a.tokens := List.flatMap_singleton Answer.tokens a
  rcases h.pending_eq with ⟨heof, hrest, hpending⟩ | ⟨hne, hpending, hlt⟩
  · have hisEof : p.token.isEof = true := by
      rw [heof]
      rfl
    rw [hisEof] at htokens hend
    exact
      { h with
        offset_le := offset_le_of_nil hs h.sound h.source_eq hrest
        pending_eq := by rw [hflat, htokens, hpending, pending_of_nil hrest, heof]; rfl
        progress := fun hall => absurd (hall a (List.mem_singleton_self a)) (by rw [hend]; decide)
        remaining_eq := fun _ => hrest }
  · have hisEof : p.token.isEof = false := by
      rw [Token.isEof, beq_eq_false_iff_ne]
      exact hne
    rw [hisEof] at htokens hend
    exact
      { h with
        offset_le := Nat.le_of_lt hlt
        pending_eq := by rw [hflat, htokens, hpending]; rfl
        progress := fun _ => hlt
        remaining_eq := by
          rintro ⟨b, hb, hmeets⟩
          rw [List.mem_singleton.1 hb, hend] at hmeets
          cases hmeets }

theorem Drained.Takes.serves {d : Drained} (h : d.Takes [] [] stream) (hs : stream.Sound) :
    stream.Serves [.items d.tokens] d.rest where
  sound := h.sound
  source_eq := h.source_eq
  comments_eq := h.comments_eq
  line_add := by rw [h.remaining_eq, List.count_nil, Nat.add_zero, h.line_add]
  offset_le := offset_le_of_nil hs h.sound h.source_eq h.remaining_eq
  pending_eq := by
    have hpending := h.tokens_eq
    rw [h.eof_eq, List.nil_append] at hpending
    rw [pending_of_nil h.remaining_eq, ← hpending, List.flatMap_singleton]
    rfl
  progress hall := absurd (hall _ (List.mem_singleton_self _)) (nofun : ¬ true = false)
  remaining_eq _ := h.remaining_eq

/-- A sound stream serves a request. -/
theorem exists_serve (h : stream.Sound) (r : Request) :
    ∃ a rest, stream.serve r = .ok (a, rest) ∧ stream.Serves [a] rest := by
  cases r with
  | token =>
    obtain ⟨p, hp, htakes⟩ := exists_next h
    refine ⟨_, _, ?_, htakes.serves (a := .token p.token) h rfl rfl⟩
    rw [serve, hp]
    rfl
  | item =>
    obtain ⟨p, hp, htakes⟩ := exists_next h
    have htokens : (Answer.item p.token?).tokens = if p.token.isEof then [] else [p.token] := by
      cases hk : p.token.isEof <;> simp [Answer.tokens, Pull.token?, hk]
    have hend : (Answer.item p.token?).meetsEnd = p.token.isEof := by
      cases hk : p.token.isEof <;> simp [Answer.meetsEnd, Pull.token?, hk]
    refine ⟨_, _, ?_, htakes.serves h htokens hend⟩
    rw [serve, hp]
    rfl
  | items =>
    obtain ⟨d, hd, htakes⟩ := exists_drain h
    refine ⟨_, _, ?_, htakes.serves h⟩
    rw [serve, hd]
    rfl

/-! ## Runs of requests -/

/-- A sound stream serves every run of requests, with one answer for each. -/
theorem exists_serveAll (h : stream.Sound) (rs : List Request) :
    ∃ as rest, stream.serveAll rs = .ok (as, rest) ∧ as.length = rs.length ∧
      stream.Serves as rest := by
  induction rs generalizing stream with
  | nil => exact ⟨[], stream, rfl, rfl, .refl h⟩
  | cons r rs ih =>
    obtain ⟨a, mid, hmid, hserves⟩ := exists_serve h r
    obtain ⟨as, rest, hrest, hlen, hserves'⟩ := ih hserves.sound
    refine ⟨a :: as, rest, ?_, congrArg Nat.succ hlen, hserves.trans hserves'⟩
    rw [serveAll, hmid]
    simp only [bind, Except.bind, hrest]
    rfl

/-- Any token that a stream has to give is the next one, once those in front of it are given. -/
theorem exists_next_behind (h : stream.Sound) {ts us : List Token} {t : Token}
    (hpending : stream.pending = ts ++ t :: us) : ∃ rest p,
      stream.serveAll (List.replicate ts.length .token) = .ok (ts.map .token, rest) ∧
      stream.Serves (ts.map .token) rest ∧ rest.pending = t :: us ∧
      rest.next = .ok p ∧ p.Takes rest ∧ p.token = t := by
  induction ts generalizing stream with
  | nil =>
    obtain ⟨p, hp, htakes⟩ := exists_next h
    refine ⟨stream, p, rfl, .refl h, hpending, hp, htakes, ?_⟩
    rw [List.nil_append] at hpending
    rcases htakes.pending_eq with ⟨-, -, heq⟩ | ⟨-, heq, -⟩ <;>
      (rw [hpending] at heq; exact (List.cons.inj heq).1.symm)
  | cons t' ts ih =>
    obtain ⟨p, hp, htakes⟩ := exists_next h
    rw [List.cons_append] at hpending
    rcases htakes.pending_eq with ⟨-, -, heq⟩ | ⟨-, heq, -⟩
    · rw [hpending] at heq
      simp at heq
    · rw [hpending] at heq
      obtain ⟨rfl, hrest⟩ := List.cons.inj heq
      obtain ⟨rest, q, hserve, hserves, hfront⟩ := ih htakes.sound hrest.symm
      have hfirst : stream.Serves [.token p.token] p.rest := htakes.serves h rfl rfl
      refine ⟨rest, q, ?_, hfirst.trans hserves, hfront⟩
      rw [List.length_cons, List.replicate_succ, serveAll, serve, hp]
      simp only [bind, Except.bind, pure, Except.pure, hserve, List.map_cons]

end Serve

end TokenStream

end Ivy
