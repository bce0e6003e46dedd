import Ivy.Proofs.Escapes
import Ivy.Proofs.Lexemes
import Ivy.Proofs.Lines
import Mathlib.Order.Bounds.Basic

/-!
# Extents of strings

A string goes from its opening quotation mark up to the first one behind it in front of which there
is an even number of backslashes (`IsClosing`).  If there is none, all that is left is an invalid
token, and the end mark comes next.  A stream that has read the string has counted the line feeds in
it (`tokenize_stringExtents`).
-/

namespace Ivy

/-! ## Closing quotation marks -/

/-- Whether the byte at `stop` is a quotation mark that may close a string which starts at `start`.
Backslashes count from behind the opening quotation mark on. -/
structure IsClosing (text : String) (start stop : Nat) : Prop where
  lt : start < stop
  getElem?_eq : (Utf8.bytesOf text)[stop]? = some quotationMark
  not_isEscaped : ¬ IsEscaped (bytesBetween text (start + 1) stop)

section Closing

variable {text : String} {start stop : Nat} {l v : List UInt8}

/-- What stands behind the opening quotation mark tells which others may close the string. -/
theorem isClosing_iff (hdrop : (Utf8.bytesOf text).drop (start + 1) = l) :
    IsClosing text start stop ↔ ∃ v r, l = v ++ quotationMark :: r ∧
      stop = start + 1 + v.length ∧ ¬ IsEscaped v := by
  have hget (n : Nat) : (Utf8.bytesOf text)[start + 1 + n]? = l[n]? := by
    rw [← hdrop, List.getElem?_drop]
  have hbetween (n : Nat) : bytesBetween text (start + 1) (start + 1 + n) = l.take n := by
    rw [bytesBetween, hdrop, Nat.add_sub_cancel_left]
  constructor
  · rintro ⟨hlt, hquote, hplain⟩
    obtain ⟨n, rfl⟩ := Nat.exists_eq_add_of_le (Nat.succ_le_of_lt hlt)
    rw [Nat.succ_eq_add_one, hget] at hquote
    rw [Nat.succ_eq_add_one, hbetween] at hplain
    obtain ⟨hn, hquote⟩ := List.getElem?_eq_some_iff.1 hquote
    refine ⟨l.take n, l.drop (n + 1), ?_, ?_, hplain⟩
    · rw [← hquote, ← List.drop_eq_getElem_cons hn, List.take_append_drop]
    · rw [List.length_take, Nat.min_eq_left (Nat.le_of_lt hn)]
  · rintro ⟨v, r, rfl, rfl, hplain⟩
    refine ⟨by omega, ?_, ?_⟩
    · rw [hget]
      simp
    · rwa [hbetween, List.take_left]

theorem not_isClosing (hdrop : (Utf8.bytesOf text).drop (start + 1) = l)
    (h : restOfString? l = none) (stop : Nat) : ¬ IsClosing text start stop := by
  rw [isClosing_iff hdrop]
  rintro ⟨v, r, hl, -, hplain⟩
  exact hplain (restOfString?_eq_none_iff.1 h v r hl)

/-- What is read of a string ends with the first quotation mark that may close it. -/
theorem isLeast_isClosing (hdrop : (Utf8.bytesOf text).drop (start + 1) = l)
    (h : restOfString? l = some (v ++ [quotationMark])) :
    IsLeast {stop | IsClosing text start stop} (start + 1 + v.length) := by
  obtain ⟨r, hr⟩ := restOfString?_isPrefix h
  rw [List.append_assoc, List.singleton_append] at hr
  constructor
  · exact (isClosing_iff hdrop).2
      ⟨v, r, hr.symm, rfl, not_isEscaped_of_restOfString? h⟩
  · intro stop hstop
    obtain ⟨u, s, hu, rfl, hplain⟩ := (isClosing_iff hdrop).1 hstop
    apply Nat.le_of_not_lt
    intro hlt
    -- A shorter run of bytes up to a quotation mark lies in front of the one that closes.
    have hu' : u ++ [quotationMark] <+: l := ⟨s, by rw [hu, List.append_assoc]; rfl⟩
    have hv : v <+: l := ⟨quotationMark :: r, hr⟩
    have hprefix : u ++ [quotationMark] <+: v := by
      apply List.prefix_of_prefix_length_le hu' hv
      rw [List.length_append, List.length_singleton]
      omega
    obtain ⟨s, hs⟩ := hprefix
    rw [List.append_assoc] at hs
    exact hplain (isEscaped_of_restOfString? h hs.symm)

end Closing

/-! ## Tokens that start with a quotation mark -/

/-- Whether a token that starts with a quotation mark, and has `rest` behind it, extends as far as
a string does. -/
structure Token.ExtendsAsString (t : Token) (text : String) (rest : List Token) : Prop where
  line_eq : t.line = lineAt text t.start
  closed : ∀ stop, IsLeast {stop | IsClosing text t.start stop} stop →
    t.kind = .literalString ∧ t.stop = stop + 1
  unclosed : (∀ stop, ¬ IsClosing text t.start stop) →
    t.kind = .invalid ∧ t.stop = text.utf8ByteSize ∧ ∃ eof, rest = [eof] ∧ eof.kind = .eof

namespace Token.Heads

variable {text : String} {comments : CommentMode} {l : List UInt8} {t : Token}

/-- A quotation mark starts a string that is closed or takes up all that is left. -/
theorem string_cases (h : t.Heads comments (Utf8.bytesOf text) quotationMark l) :
    (∃ v, restOfString? l = some (v ++ [quotationMark]) ∧ t.kind = .literalString ∧
        t.stop = t.start + 1 + v.length + 1) ∨
      restOfString? l = none ∧ t.kind = .invalid ∧ t.stop = text.utf8ByteSize := by
  have hk := h.kind?_eq
  have hstop := h.stop_eq
  rw [pieceFrom_quotationMark, stringPiece] at hk hstop
  cases hl : restOfString? l with
  | none =>
    rw [hl] at hk hstop
    exact .inr ⟨rfl, (Option.some.inj hk).symm, hstop.trans h.start_add_length⟩
  | some w =>
    obtain ⟨v, rfl⟩ := eq_concat_of_restOfString? hl
    rw [hl] at hk hstop
    refine .inl ⟨v, rfl, (Option.some.inj hk).symm, ?_⟩
    rw [hstop, List.length_cons, List.length_append, List.length_singleton]
    omega

theorem kind_of_isLeast (h : t.Heads comments (Utf8.bytesOf text) quotationMark l) {stop : Nat}
    (hleast : IsLeast {stop | IsClosing text t.start stop} stop) :
    t.kind = .literalString ∧ t.stop = stop + 1 := by
  rcases h.string_cases with ⟨v, hl, hkind, hstop⟩ | ⟨hl, -⟩
  · rw [hleast.unique (isLeast_isClosing h.drop_start_succ hl)]
    exact ⟨hkind, hstop⟩
  · exact absurd hleast.1 (not_isClosing h.drop_start_succ hl stop)

theorem kind_of_forall_not (h : t.Heads comments (Utf8.bytesOf text) quotationMark l)
    (hnone : ∀ stop, ¬ IsClosing text t.start stop) :
    t.kind = .invalid ∧ t.stop = text.utf8ByteSize := by
  rcases h.string_cases with ⟨v, hl, -⟩ | ⟨-, hkind, hstop⟩
  · exact absurd (isLeast_isClosing h.drop_start_succ hl).1 (hnone _)
  · exact ⟨hkind, hstop⟩

theorem extendsAsString (h : t.Heads comments (Utf8.bytesOf text) quotationMark l)
    {us : List Token}
    (hus : t.stop = text.utf8ByteSize → ∃ eof, us = [eof] ∧ eof.kind = .eof) :
    t.ExtendsAsString text us where
  line_eq := h.line_eq
  closed stop := h.kind_of_isLeast
  unclosed hnone := by
    obtain ⟨hkind, hstop⟩ := h.kind_of_forall_not hnone
    exact ⟨hkind, hstop, hus hstop⟩

end Token.Heads

/-! ## Tokens of a text -/

/-- The lines of the bytes of a span come on top of those in front of it. -/
theorem lineAt_add (text : String) {start stop : Nat} (h : start ≤ stop) :
    lineAt text stop = lineAt text start + (bytesBetween text start stop).count lineFeed := by
  obtain ⟨n, rfl⟩ := Nat.exists_eq_add_of_le h
  rw [lineAt, lineAt, bytesBetween, List.take_add, List.count_append, Nat.add_sub_cancel_left,
    Nat.add_assoc]

/-- Behind a token that goes up to the end of its source there is the end mark only. -/
theorem TokenStream.Pull.Takes.exists_eof {stream : TokenStream} {p : Pull} {us : List Token}
    (h : p.Takes stream) (hpending : stream.pending = p.token :: us) (hkind : p.token.kind ≠ .eof)
    (hstop : p.token.stop = stream.position.source.length) :
    ∃ eof, us = [eof] ∧ eof.kind = .eof := by
  have hrest : p.rest.position.remaining = [] := by
    apply List.eq_nil_of_length_eq_zero
    rw [h.sound.inText.length_remaining, ← h.stop_eq, h.source_eq, hstop, Nat.sub_self]
  rcases h.pending_eq with ⟨heof, -⟩ | ⟨-, heq, -⟩
  · rw [heof] at hkind
    exact absurd rfl hkind
  · rw [hpending] at heq
    exact ⟨_, (List.cons.inj heq).2.trans (pending_of_nil hrest), rfl⟩

/-- A stream that has read a token stands on the line on which the token ends. -/
theorem TokenStream.Pull.Takes.line_eq {text : String} {comments : CommentMode} {as : List Answer}
    {stream : TokenStream} {p : Pull} (h : p.Takes stream)
    (hserves : ((Source.ofString text).tokens comments).Serves as stream)
    (hsize : text.utf8ByteSize ≤ maxOffset) : p.rest.line = lineAt text p.token.stop := by
  have hread := hserves.trans (h.serves (a := .token p.token) hserves.sound rfl rfl)
  rw [hread.line_eq hsize, h.stop_eq]

/-- What starts with a quotation mark extends as far as a string does, and a stream that has read it
has counted its lines. -/
theorem tokenize_stringExtents {text : String} (comments : CommentMode)
    (h : text.utf8ByteSize < maxOffset) : ∃ tokens, tokenize text comments = .ok tokens ∧
      ∀ ts t us, tokens = ts ++ t :: us →
        (Utf8.bytesOf text)[t.start]? = some quotationMark →
        t.ExtendsAsString text us ∧
        ∃ rest p, ((Source.ofString text).tokens comments).serveAll
            (List.replicate ts.length .token) = .ok (ts.map .token, rest) ∧
          rest.next = .ok p ∧ p.token = t ∧
          p.rest.line = t.line + (bytesBetween text t.start t.stop).count lineFeed := by
  have hsize := Nat.le_of_lt h
  have hsound : ((Source.ofString text).tokens comments).Sound :=
    sound_tokens hsize (count_lineFeed_lt h)
  refine ⟨_, tokenize_of_lt h, fun ts t us hsplit hquote => ?_⟩
  obtain ⟨rest, p, hserve, hserves, hpending, hp, htakes, rfl⟩ :=
    TokenStream.exists_next_behind hsound ((pending_tokens hsize).trans hsplit)
  have hmem : p.token ∈ tokensOf comments 0 1 (pieces (Utf8.bytesOf text)) := by
    rw [hsplit]
    exact List.mem_append_right ts List.mem_cons_self
  rcases heads_of_mem hmem (Utf8.isText_bytesOf text) with ⟨b, l, hheads⟩ | heof
  · obtain rfl : b = quotationMark := by
      rw [hheads.getElem?_start] at hquote
      exact Option.some.inj hquote
    refine ⟨hheads.extendsAsString fun hstop => ?_, rest, p, hserve, hp, rfl, ?_⟩
    · apply htakes.exists_eof hpending hheads.kind_ne_eof
      rw [hserves.source_eq, hstop]
      exact (Source.length_ofString hsize).symm
    · rw [htakes.line_eq hserves hsize, lineAt_add text (Nat.le_of_lt hheads.start_lt),
        line_eq_of_mem hmem]
  · rw [heof, List.getElem?_eq_none (Nat.le_refl _)] at hquote
    cases hquote

theorem tokenize_stringExtents_escapes :
    "\n\"\\\\\\\"\\\n\"\"é".utf8ByteSize < maxOffset ∧
      ∃ tokens, tokenize "\n\"\\\\\\\"\\\n\"\"é" .discard = .ok tokens ∧
        ∀ ts t us, tokens = ts ++ t :: us →
          (Utf8.bytesOf "\n\"\\\\\\\"\\\n\"\"é")[t.start]? = some quotationMark →
          t.ExtendsAsString "\n\"\\\\\\\"\\\n\"\"é" us ∧
          ∃ rest p, ((Source.ofString "\n\"\\\\\\\"\\\n\"\"é").tokens .discard).serveAll
              (List.replicate ts.length .token) = .ok (ts.map .token, rest) ∧
            rest.next = .ok p ∧ p.token = t ∧
            p.rest.line = t.line +
              (bytesBetween "\n\"\\\\\\\"\\\n\"\"é" t.start t.stop).count lineFeed :=
  ⟨by decide, tokenize_stringExtents .discard (by decide)⟩

end Ivy
