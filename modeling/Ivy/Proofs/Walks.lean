import Ivy.Proofs.PieceRecognition

/-!
# Walks

The end of a line, and the next byte that interrupts a string, are found by searching for single
bytes.  A walk takes one byte after the other and looks at each place whether to stop
(`Position.walk`).  The searches end where walks do (`skips_walk`), although the one for the end of
a line looks for the line feed only and then steps back over a carriage return.
-/

namespace Ivy

/-- Whether `l` starts with a byte that interrupts a string. -/
def atStringMark (l : List UInt8) : Bool := l.head?.any isStringMark

namespace Position

/-- Walks on, one byte at a time, to a place where it may stop or to the end of the text.  Where it
may stop depends on the bytes that are left. -/
def walk (p : Position) (stops : List UInt8 → Bool) : Except Fault Position :=
  if p.atEnd || stops p.remaining then .ok p
  else
    match _h : p.advance 1 with
    | .error fault => .error fault
    | .ok q => q.walk stops
termination_by p.source.length - p.offset
decreasing_by
  next hstop =>
  obtain ⟨rfl, -⟩ := advance_eq_ok _h
  rw [Bool.or_eq_true, not_or, atEnd, decide_eq_true_eq] at hstop
  rw [source_moveTo, offset_moveTo]
  omega

/-- Whether a walk from `p` ends at `q`, further on in the same text. -/
structure WalksTo (p : Position) (stops : List UInt8 → Bool) (q : Position) : Prop where
  walk_eq : p.walk stops = .ok q
  source_eq : q.source = p.source
  offset_le : p.offset ≤ q.offset
  le_length : q.offset ≤ p.source.length
  stops_at : q.atEnd || stops q.remaining

section Walk

variable {p q r : Position} {stops : List UInt8 → Bool}

theorem walk_eq_self (h : p.atEnd || stops p.remaining) : p.walk stops = .ok p := by
  rw [walk, if_pos h]

theorem walk_eq_walk (hgo : ¬ (p.atEnd || stops p.remaining)) (h : p.advance 1 = .ok q) :
    p.walk stops = q.walk stops := by
  fun_cases walk p stops with
  | case1 hstop => exact absurd hstop hgo
  | case2 _ fault h' => cases h.symm.trans h'
  | case3 _ r h' =>
    cases h.symm.trans h'
    rfl

theorem InText.stops_iff (h : p.InText) :
    p.atEnd || stops p.remaining ↔ p.remaining = [] ∨ stops p.remaining := by
  rw [h.atEnd_eq, Bool.or_eq_true, List.isEmpty_iff]

/-- A walk passes the places where it may not stop. -/
theorem walk_eq_moveTo (h : p.InText) {n : Nat} (hn : n ≤ p.remaining.length)
    (hpass : ∀ k < n, ¬ stops (p.remaining.drop k)) :
    p.walk stops = (p.moveTo (p.offset + n)).walk stops := by
  induction n generalizing p with
  | zero => rfl
  | succ n ih =>
    obtain ⟨b, l, hr⟩ := List.exists_cons_of_length_pos (Nat.lt_of_lt_of_le n.succ_pos hn)
    obtain ⟨hadv, hin, hrest⟩ := advance_one_eq h hr
    have hgo : ¬ (p.atEnd || stops p.remaining) := by
      rw [h.stops_iff, not_or]
      exact ⟨by simp [hr], hpass 0 n.succ_pos⟩
    rw [hr] at hn hpass
    rw [walk_eq_walk hgo hadv, ih hin, offset_moveTo, Nat.add_assoc, Nat.add_comm 1]
    · rfl
    · rw [hrest]
      exact Nat.le_of_succ_le_succ hn
    · intro k hk
      rw [hrest]
      exact hpass (k + 1) (Nat.succ_lt_succ hk)

/-- A walk ends at the first place where it may stop. -/
theorem walksTo_moveTo (h : p.InText) {n : Nat} (hn : n ≤ p.remaining.length)
    (hpass : ∀ k < n, ¬ stops (p.remaining.drop k))
    (hstop : p.remaining.drop n = [] ∨ stops (p.remaining.drop n)) :
    p.WalksTo stops (p.moveTo (p.offset + n)) := by
  rw [← remaining_moveTo, ← (h.moveTo hn).stops_iff] at hstop
  exact
    { walk_eq := by rw [walk_eq_moveTo h hn hpass, walk_eq_self hstop]
      source_eq := rfl
      offset_le := Nat.le_add_right p.offset n
      le_length := (h.moveTo hn).offset_le
      stops_at := hstop }

namespace WalksTo

theorem inText (h : p.WalksTo stops q) (hp : p.InText) : q.InText where
  wellLaid := h.source_eq.symm ▸ hp.wellLaid
  offset_le := h.source_eq.symm ▸ h.le_length

/-- A walk that starts where one has ended stays there. -/
theorem eq_of_walksTo (h : p.WalksTo stops q) (h' : q.WalksTo stops r) : r = q := by
  have hself := walk_eq_self h.stops_at
  rw [h'.walk_eq] at hself
  exact Except.ok.inj hself

end WalksTo

end Walk

/-! ## Searches -/

section Skips

variable {p q : Position}

theorem exists_skipToLineEnd (h : p.InText) :
    ∃ q, p.skipToLineEnd = .ok q ∧ p.WalksTo atLineEnd q := by
  refine ⟨_, skipToLineEnd_eq h, walksTo_moveTo h (restOfLine_isPrefix _).length_le ?_ ?_⟩
  · exact fun k hk => not_atLineEnd_drop hk
  · exact .inr (atLineEnd_drop p.remaining)

theorem not_atStringMark_drop {w l : List UInt8} {k : Nat} (h : ∀ b ∈ w, ¬ isStringMark b)
    (hk : k < w.length) : ¬ atStringMark ((w ++ l).drop k) := by
  rw [List.drop_append_of_le_length (Nat.le_of_lt hk), List.drop_eq_getElem_cons hk]
  exact h _ (List.getElem_mem hk)

theorem exists_skipToStringMark (h : p.InText) :
    ∃ q, p.skipToStringMark = .ok (q, q.remaining.head?) ∧ p.WalksTo atStringMark q := by
  rcases skipToStringMark_eq h with ⟨heq, hall⟩ | ⟨w, b, l, hr, hw, hb, heq⟩
  · have hdrop : p.remaining.drop p.remaining.length = [] := List.drop_length
    refine ⟨_, ?_, walksTo_moveTo h (Nat.le_refl _) ?_ (.inl hdrop)⟩
    · rw [heq, remaining_moveTo, hdrop, List.head?_nil]
    · intro k hk
      rw [← List.append_nil p.remaining]
      exact not_atStringMark_drop hall hk
  · have hdrop : p.remaining.drop w.length = b :: l := by rw [hr, List.drop_left]
    refine ⟨p.moveTo (p.offset + w.length), ?_, walksTo_moveTo h (by simp [hr]) ?_ (.inr ?_)⟩
    · rw [heq, remaining_moveTo, hdrop, List.head?_cons]
    · intro k hk
      rw [hr]
      exact not_atStringMark_drop hw hk
    · rw [hdrop]
      exact hb

/-- No byte that interrupts a string is zero. -/
theorem getD_head?_eq_zero_iff (h : p.InText) (hstop : p.atEnd || atStringMark p.remaining) :
    (p.remaining.head?).getD 0 = 0 ↔ p.offset = p.source.length := by
  have hlen := h.length_remaining
  cases hr : p.remaining with
  | nil => exact iff_of_true rfl (h.offset_eq hr)
  | cons b l =>
    have hlt := (h.offset_lt hr).1
    rw [h.stops_iff, hr] at hstop
    have hmark : isStringMark b := hstop.resolve_left (List.cons_ne_nil b l)
    apply iff_of_false
    · rw [List.head?_cons, Option.getD_some]
      rintro rfl
      exact absurd hmark (by decide)
    · omega

end Skips

end Position

/-! ## Texts -/

section Text

variable {text : String} {p : Position}

/-- The searches end where walks do, also when they are repeated.  The one for what interrupts a
string tells the byte that it has found, and zero stands for the end of the text only. -/
theorem skips_walk (h : text.utf8ByteSize ≤ maxOffset)
    (hsource : p.source = Source.ofString text) (hp : p.offset ≤ text.utf8ByteSize) :
    (∃ q, p.skipToLineEnd = .ok q ∧ p.WalksTo atLineEnd q ∧ q.skipToLineEnd = .ok q) ∧
    ∃ q mark, p.skipToStringMark = .ok (q, mark) ∧ p.WalksTo atStringMark q ∧
      q.skipToStringMark = .ok (q, mark) ∧ mark = (Utf8.bytesOf text)[q.offset]? ∧
      (mark.getD 0 = 0 ↔ q.offset = text.utf8ByteSize) := by
  have hin := inText_of_source h hsource hp
  constructor
  · obtain ⟨q, hq, hwalk⟩ := Position.exists_skipToLineEnd hin
    obtain ⟨r, hr, hwalk'⟩ := Position.exists_skipToLineEnd (hwalk.inText hin)
    rw [hwalk.eq_of_walksTo hwalk'] at hr
    exact ⟨q, hq, hwalk, hr⟩
  · obtain ⟨q, hq, hwalk⟩ := Position.exists_skipToStringMark hin
    have hin' := hwalk.inText hin
    obtain ⟨r, hr, hwalk'⟩ := Position.exists_skipToStringMark hin'
    rw [hwalk.eq_of_walksTo hwalk'] at hr
    have hsource' := hwalk.source_eq.trans hsource
    refine ⟨q, _, hq, hwalk, hr, ?_, ?_⟩
    · rw [remaining_of_source h hsource', List.head?_drop]
    · rw [Position.getD_head?_eq_zero_iff hin' hwalk.stops_at, hsource', Source.length_ofString h]

/-- A walk does not stop at a zero, nor at a carriage return in front of another one. -/
theorem skips_walk_carriageReturns : "é\x00\r\r\n\"".utf8ByteSize ≤ maxOffset ∧
    ((Source.ofString "é\x00\r\r\n\"").start.moveTo 1).source = Source.ofString "é\x00\r\r\n\"" ∧
    1 ≤ "é\x00\r\r\n\"".utf8ByteSize ∧
    (∃ q, ((Source.ofString "é\x00\r\r\n\"").start.moveTo 1).skipToLineEnd = .ok q ∧
      ((Source.ofString "é\x00\r\r\n\"").start.moveTo 1).WalksTo atLineEnd q ∧
      q.skipToLineEnd = .ok q) ∧
    ∃ q mark, ((Source.ofString "é\x00\r\r\n\"").start.moveTo 1).skipToStringMark =
        .ok (q, mark) ∧
      ((Source.ofString "é\x00\r\r\n\"").start.moveTo 1).WalksTo atStringMark q ∧
      q.skipToStringMark = .ok (q, mark) ∧
      mark = (Utf8.bytesOf "é\x00\r\r\n\"")[q.offset]? ∧
      (mark.getD 0 = 0 ↔ q.offset = "é\x00\r\r\n\"".utf8ByteSize) :=
  ⟨by decide, rfl, by decide, skips_walk (by decide) rfl (by decide)⟩

end Text

end Ivy
