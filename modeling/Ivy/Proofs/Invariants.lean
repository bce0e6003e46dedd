import Ivy.Proofs.Requests

/-!
# Invariants of streams

A property of streams that every stretch of source preserves is preserved by a pull, by a drain and
by every run of requests (`TokenStream.serveAll_preserves`).  With it, a stream that was started
between two characters stays between characters (`TokenStream.Aligned`).
-/

namespace Ivy

namespace TokenStream

section Preserves

variable {P : TokenStream → Prop} {stream rest : TokenStream}

/-- Whether a property is preserved when a stretch is passed. -/
def Preserved (P : TokenStream → Prop) : Prop :=
  ∀ stream s, recognise stream.position stream.line = .ok s → P stream → P (stream.behind s)

theorem next_preserves (hP : Preserved P) {p : Pull} (hp : stream.next = .ok p) (h : P stream) :
    P p.rest := by
  fun_induction next stream with
  | case1 => cases hp
  | case2 stream s hs hk ih => exact ih hp (hP stream s hs h)
  | case3 stream s hs kind hk =>
    simp only [bind_eq_ok_iff, pure_eq_ok_iff] at hp
    obtain ⟨t, -, rfl⟩ := hp
    exact hP stream s hs h

theorem drainFrom_preserves (hP : Preserved P) {tokens : List Token} {log : List Event}
    {d : Drained} (hd : stream.drainFrom tokens log = .ok d) (h : P stream) : P d.rest := by
  fun_induction drainFrom stream tokens log with
  | case1 => cases hd
  | case2 stream _ _ p hp _ he =>
    cases hd
    exact next_preserves hP hp h
  | case3 stream tokens _ p hp log he ih => exact ih hd (next_preserves hP hp h)

theorem serve_preserves (hP : Preserved P) {r : Request} {a : Answer}
    (hr : stream.serve r = .ok (a, rest)) (h : P stream) : P rest := by
  cases r with
  | token | item =>
    simp only [serve, bind_eq_ok_iff, pure_eq_ok_iff, Prod.mk.injEq] at hr
    obtain ⟨p, hp, -, rfl⟩ := hr
    exact next_preserves hP hp h
  | items =>
    simp only [serve, bind_eq_ok_iff, pure_eq_ok_iff, Prod.mk.injEq] at hr
    obtain ⟨d, hd, -, rfl⟩ := hr
    exact drainFrom_preserves hP hd h

theorem serveAll_preserves (hP : Preserved P) {rs : List Request} {as : List Answer}
    (hrs : stream.serveAll rs = .ok (as, rest)) (h : P stream) : P rest := by
  induction rs generalizing stream as with
  | nil =>
    cases hrs
    exact h
  | cons r rs ih =>
    simp only [serveAll, bind_eq_ok_iff, pure_eq_ok_iff, Prod.mk.injEq] at hrs
    obtain ⟨⟨a, mid⟩, hr, ⟨as', rest'⟩, hrs, -, rfl⟩ := hrs
    exact ih hrs (serve_preserves hP hr h)

end Preserves

/-! ## Streams between characters -/

/-- Whether a sound stream stands between two characters of its text. -/
structure Aligned (stream : TokenStream) : Prop extends stream.Sound where
  isText : Utf8.IsText stream.position.remaining

/-- No stretch ends inside a character. -/
theorem aligned_preserved : Preserved Aligned := by
  intro stream s hs h
  rw [recognise_eq h.inText h.line_le] at hs
  cases hs
  cases hr : stream.position.remaining with
  | nil => exact h
  | cons b l =>
    have hstarts := starts_pieceFrom b l
    have hrest := Position.remaining_moveTo stream.position (pieceFrom b l).bytes.length
    have htext := h.isText
    rw [hr] at htext hrest
    refine ⟨h.toSound.behind hstarts hr, ?_⟩
    show Utf8.IsText (stream.position.moveTo _).remaining
    exact hrest ▸ hstarts.isText_drop htext

end TokenStream

theorem aligned_tokens {text : String} (comments : CommentMode) (h : text.utf8ByteSize ≤ maxOffset)
    (hl : (Utf8.bytesOf text).count lineFeed < maxOffset) :
    ((Source.ofString text).tokens comments).Aligned where
  toSound := sound_tokens h hl
  isText := by
    show Utf8.IsText (Source.ofString text).start.remaining
    rw [remaining_start h]
    exact Utf8.isText_bytesOf text

end Ivy
