import Ivy.Log.Event
import Ivy.Token.Basic
import Ivy.Token.Recognition.Progress

/-!
# Token streams

A `TokenStream` is a position in a source together with the number of its line.  `TokenStream.next`
takes the next token off it, `TokenStream.drain` all tokens that are left and `TokenStream.scan`
all tokens and the end mark.  At the end of the source the next token is the end mark, and the
stream stays where it is.  Text that forms no token becomes a token of the kind `invalid` and is
told to the log.

Every token but the end mark has at least one byte (`TokenStream.next_advances`).
-/

namespace Ivy

/-- What becomes of comments. -/
inductive CommentMode
  /-- They are tokens. -/
  | retain
  /-- They are skipped like blanks. -/
  | discard
deriving DecidableEq

/-- The kind of the token that a stretch becomes, none if it is skipped. -/
def Form.kind? (comments : CommentMode) : Form → Option Kind
  | .gap => none
  | .token kind => if kind.isTrivia && comments == .discard then none else some kind
  | .defect _ => some .invalid
  | .finish => some .eof

/-- What the log is told about a stretch at offset `start` on line `line`. -/
def Form.event? (start line : Nat) : Form → Option Event
  | .defect cause => some (.defectFound cause start line)
  | _ => none

/-- The tokens of a source from a position on. -/
structure TokenStream where
  position : Position
  /-- The number of the line of the position. -/
  line : Nat
  comments : CommentMode

/-- The tokens from `p` on, with the lines numbered from there. -/
def Position.tokens (p : Position) (comments : CommentMode) : TokenStream := ⟨p, 1, comments⟩

/-- The tokens of a source. -/
def Source.tokens (src : Source) (comments : CommentMode) : TokenStream :=
  src.start.tokens comments

namespace TokenStream

/-- A token that has been taken off a stream. -/
structure Pull where
  token : Token
  /-- The stream behind the token. -/
  rest : TokenStream
  /-- What the log is told. -/
  event? : Option Event

/-- The token, none if it is the end mark. -/
def Pull.token? (p : Pull) : Option Token := if p.token.isEof then none else some p.token

/-- The stream behind the stretch `s`. -/
def behind (stream : TokenStream) (s : Stretch) : TokenStream :=
  { stream with position := s.next, line := s.line }

/-- Takes the next token off a stream. -/
def next (stream : TokenStream) : Except Fault Pull :=
  match _hs : recognise stream.position stream.line with
  | .error fault => .error fault
  | .ok s =>
    match _hk : s.form.kind? stream.comments with
    | none => next (stream.behind s)
    | some kind => do
      let start := stream.position.offset
      let token ← Token.ofSpan kind start s.next.offset stream.line
      return ⟨token, stream.behind s, s.form.event? start stream.line⟩
termination_by stream.position.source.buffer.size - stream.position.offset
decreasing_by
  obtain ⟨hlt, rfl | ⟨-, h₁, h₂⟩⟩ := recognise_advances _hs
  · cases _hk
  · simp only [behind, h₁]
    omega

theorem next_advances {stream : TokenStream} {p : Pull} (h : stream.next = .ok p) :
    stream.position.offset < stream.position.source.buffer.size ∧
      p.rest.position.source = stream.position.source ∧
      (p.token.kind ≠ .eof → stream.position.offset < p.rest.position.offset) := by
  fun_induction next stream with
  | case1 => cases h
  | case2 stream s hs hk ih =>
    obtain ⟨hlt, rfl | ⟨-, h₁, h₂⟩⟩ := recognise_advances hs
    · cases hk
    · obtain ⟨-, h₃, h₄⟩ := ih h
      simp only [behind] at h₃ h₄
      exact ⟨hlt, h₃.trans h₁, fun hne => Nat.lt_trans h₂ (h₄ hne)⟩
  | case3 stream s hs kind hk =>
    simp only [bind_eq_ok_iff, pure_eq_ok_iff, Token.ofSpan_eq_ok_iff] at h
    obtain ⟨token, ⟨-, rfl⟩, rfl⟩ := h
    obtain ⟨hlt, rfl | ⟨-, h₁, h₂⟩⟩ := recognise_advances hs
    · cases hk
      exact ⟨hlt, rfl, fun hne => absurd rfl hne⟩
    · exact ⟨hlt, h₁, fun _ => h₂⟩

section Next

variable {stream : TokenStream} {s : Stretch}

theorem next_of_error {fault : Fault}
    (h : recognise stream.position stream.line = .error fault) : stream.next = .error fault := by
  fun_cases next stream with
  | case1 fault' h' =>
    cases h.symm.trans h'
    rfl
  | case2 s h' => cases h.symm.trans h'
  | case3 s h' => cases h.symm.trans h'

/-- A stretch that becomes no token is passed. -/
theorem next_of_none (h : recognise stream.position stream.line = .ok s)
    (hk : s.form.kind? stream.comments = none) : stream.next = (stream.behind s).next := by
  fun_cases next stream with
  | case1 fault h' => cases h.symm.trans h'
  | case2 s' h' =>
    cases h.symm.trans h'
    rfl
  | case3 s' h' kind hk' =>
    cases h.symm.trans h'
    cases hk.symm.trans hk'

/-- A stretch that becomes a token is taken. -/
theorem next_of_some {kind : Kind} (h : recognise stream.position stream.line = .ok s)
    (hk : s.form.kind? stream.comments = some kind)
    (hle : stream.position.offset ≤ s.next.offset) : stream.next =
      .ok ⟨⟨kind, stream.position.offset, s.next.offset, stream.line⟩, stream.behind s,
        s.form.event? stream.position.offset stream.line⟩ := by
  fun_cases next stream with
  | case1 fault h' => cases h.symm.trans h'
  | case2 s' h' hk' =>
    cases h.symm.trans h'
    cases hk.symm.trans hk'
  | case3 s' h' kind' hk' =>
    cases h.symm.trans h'
    cases hk.symm.trans hk'
    exact bind_eq_ok_iff.2 ⟨_, Token.ofSpan_eq_ok_iff.2 ⟨hle, rfl⟩, rfl⟩

end Next

/-- The tokens that were left on a stream. -/
structure Drained where
  /-- The tokens before the end mark. -/
  tokens : List Token
  /-- The end mark. -/
  eof : Token
  /-- The stream at its end. -/
  rest : TokenStream
  /-- What the log is told. -/
  log : List Event

/-- Takes all tokens off a stream, with those taken before in reverse order. -/
def drainFrom (stream : TokenStream) (tokens : List Token) (log : List Event) :
    Except Fault Drained :=
  match _h : stream.next with
  | .error fault => .error fault
  | .ok p =>
    let log := p.event?.toList ++ log
    if _he : p.token.kind = .eof then .ok ⟨tokens.reverse, p.token, p.rest, log.reverse⟩
    else drainFrom p.rest (p.token :: tokens) log
termination_by stream.position.source.buffer.size - stream.position.offset
decreasing_by
  obtain ⟨hlt, h₁, h₂⟩ := next_advances _h
  have := h₂ _he
  rw [h₁]
  omega

/-- Takes all tokens off a stream. -/
def drain (stream : TokenStream) : Except Fault Drained := stream.drainFrom [] []

section Drain

variable {stream : TokenStream}

theorem drain_of_error {fault : Fault} (h : stream.next = .error fault) :
    stream.drain = .error fault := by
  rw [drain]
  fun_cases drainFrom stream [] [] with
  | case1 fault' h' =>
    cases h.symm.trans h'
    rfl
  | case2 p h' => cases h.symm.trans h'
  | case3 p h' => cases h.symm.trans h'

/-- Where the end mark is next, no tokens are left. -/
theorem drain_of_eof {p : Pull} (h : stream.next = .ok p) (hkind : p.token.kind = .eof) :
    stream.drain = .ok ⟨[], p.token, p.rest, p.event?.toList⟩ := by
  rw [drain]
  fun_cases drainFrom stream [] [] with
  | case1 fault h' => cases h.symm.trans h'
  | case2 p' h' log =>
    cases h.symm.trans h'
    have hlog : log.reverse = p.event?.toList := by
      show (p.event?.toList ++ []).reverse = _
      cases p.event? <;> rfl
    rw [hlog]
    rfl
  | case3 p' h' log he =>
    cases h.symm.trans h'
    exact absurd hkind he

end Drain

/-- The result of a scan. -/
structure Scan where
  /-- The tokens, the last of which is the end mark. -/
  tokens : List Token
  /-- What the log is told. -/
  log : List Event

/-- Scans to the end of the source. -/
def scan (stream : TokenStream) : Except Fault Scan := do
  let d ← stream.drain
  let tokens := d.tokens ++ [d.eof]
  let invalid := tokens.countP (·.kind.isError)
  return ⟨tokens, d.log ++ [.scanComplete tokens.length invalid d.rest.line]⟩

end TokenStream

/-- The tokens of a text. -/
def tokenize (text : String) (comments : CommentMode) : Except Fault (List Token) := do
  return (← ((Source.ofString text).tokens comments).scan).tokens

end Ivy
