import Ivy.Proofs.PieceRecognition
import Mathlib.Order.Bounds.Basic

/-!
# Runs of moves

A position between two characters of a text stays between characters, whatever moves are made one
after the other, and no move fails or goes back (`moves_keepToCharacters`).  Over one character a
move goes to the next place between characters, and over the bytes of a class up to the first byte
that is not in it.
-/

namespace Ivy

/-- A class of ASCII bytes that zero is not in. -/
structure AsciiClass where
  test : UInt8 → Bool
  isAscii : ∀ b, test b → 0 < b ∧ b < 0x80

namespace AsciiClass

/-- The spaces and tabs. -/
def blank : AsciiClass := ⟨isBlank, forall_byte (by decide +kernel)⟩

/-- The digits. -/
def digit : AsciiClass := ⟨isDigit, forall_byte (by decide +kernel)⟩

/-- The bytes that can go on a word. -/
def word : AsciiClass := ⟨isWordByte, forall_byte (by decide +kernel)⟩

variable (c : AsciiClass)

theorem test_zero : c.test 0 = false := by
  rw [← Bool.not_eq_true]
  exact fun h => absurd (c.isAscii 0 h).1 (by decide)

theorem isText_takeWhile (l : List UInt8) : Utf8.IsText (l.takeWhile c.test) :=
  Utf8.isText_of_ascii fun b hb => (c.isAscii b (mem_takeWhile hb)).2

end AsciiClass

/-- A move of a position. -/
inductive Move
  /-- Over the next character. -/
  | character
  /-- Over spaces and tabs. -/
  | blanks
  /-- Over the bytes of a class. -/
  | run (c : AsciiClass)
  /-- To the end of the line. -/
  | lineEnd
  /-- To the next byte that interrupts a string. -/
  | stringMark

/-- The bytes that a move goes over as long as it meets no other ones. -/
def Move.class? : Move → Option AsciiClass
  | blanks => some .blank
  | run c => some c
  | character | lineEnd | stringMark => none

namespace Position

/-- Makes a move. -/
def move (p : Position) : Move → Except Fault Position
  | .character => p.advanceChar
  | .blanks => p.skipBlanks
  | .run c => p.skipWhile c.test
  | .lineEnd => p.skipToLineEnd
  | .stringMark => do return (← p.skipToStringMark).1

/-- Makes moves one after the other. -/
def moveAll (p : Position) : List Move → Except Fault Position
  | [] => .ok p
  | m :: ms => do (← p.move m).moveAll ms

/-- Whether a move may be made: over a character only where there is one. -/
def allows (p : Position) : Move → Bool
  | .character => !p.atEnd
  | .blanks | .run _ | .lineEnd | .stringMark => true

/-- Whether moves may be made one after the other. -/
def allowsAll (p : Position) : List Move → Bool
  | [] => true
  | m :: ms => p.allows m && match p.move m with
    | .ok q => q.allowsAll ms
    | .error _ => true

/-- Whether a position stands between two characters of `text`. -/
structure OnBoundary (p : Position) (text : String) : Prop where
  source_eq : p.source = Source.ofString text
  isValid : String.Pos.Raw.IsValid text ⟨p.offset⟩

end Position

/-- Whether a move that leads from `p` to `q` goes as far as it should. -/
structure Move.Leads (m : Move) (text : String) (p q : Position) : Prop where
  onBoundary : q.OnBoundary text
  offset_le : p.offset ≤ q.offset
  le_size : q.offset ≤ text.utf8ByteSize
  /-- Over a character it goes as many bytes on as the first of them says. -/
  character : m = .character →
    IsLeast {i | p.offset < i ∧ String.Pos.Raw.IsValid text ⟨i⟩} q.offset ∧
    ∃ b, (Utf8.bytesOf text)[p.offset]? = some b ∧ q.offset = p.offset + Utf8.width b
  /-- Over the bytes of a class it goes to the first place where there is none. -/
  run : ∀ c, m.class? = some c →
    IsLeast {i | p.offset ≤ i ∧ ∀ b, (Utf8.bytesOf text)[i]? = some b → ¬ c.test b} q.offset

/-! ## Positions between characters -/

namespace Position.OnBoundary

variable {text : String} {p : Position} {w r : List UInt8}

theorem inText (h : p.OnBoundary text) (hsize : text.utf8ByteSize ≤ maxOffset) : p.InText :=
  inText_of_source hsize h.source_eq h.isValid.le_utf8ByteSize

theorem remaining_eq (h : p.OnBoundary text) (hsize : text.utf8ByteSize ≤ maxOffset) :
    p.remaining = (Utf8.bytesOf text).drop p.offset :=
  remaining_of_source hsize h.source_eq

theorem isText (h : p.OnBoundary text) (hsize : text.utf8ByteSize ≤ maxOffset) :
    Utf8.IsText p.remaining := by
  rw [h.remaining_eq hsize]
  exact (isValid_iff_isText.1 h.isValid).2

theorem getElem?_add (h : p.OnBoundary text) (hsize : text.utf8ByteSize ≤ maxOffset) (n : Nat) :
    (Utf8.bytesOf text)[p.offset + n]? = p.remaining[n]? := by
  rw [h.remaining_eq hsize, List.getElem?_drop]

/-- Behind a text there is a place between characters. -/
theorem moveTo (h : p.OnBoundary text) (hsize : text.utf8ByteSize ≤ maxOffset)
    (hr : p.remaining = w ++ r) (hw : Utf8.IsText w) :
    (p.moveTo (p.offset + w.length)).OnBoundary text where
  source_eq := h.source_eq
  isValid := by
    have hin := (h.inText hsize).moveTo (n := w.length) (by simp [hr])
    have hle := hin.offset_le
    rw [source_moveTo, h.source_eq, Source.length_ofString hsize] at hle
    rw [isValid_iff_isText, offset_moveTo, ← List.drop_drop, ← h.remaining_eq hsize, hr,
      List.drop_left]
    exact ⟨hle, (hr ▸ h.isText hsize).of_append hw⟩

/-- The next place between characters is behind the next character. -/
theorem isLeast_isValid (h : p.OnBoundary text) (hsize : text.utf8ByteSize ≤ maxOffset) {c : Char}
    (hr : p.remaining = String.utf8EncodeChar c ++ r) :
    IsLeast {i | p.offset < i ∧ String.Pos.Raw.IsValid text ⟨i⟩}
      (p.offset + (String.utf8EncodeChar c).length) := by
  constructor
  · have hpos : 0 < (String.utf8EncodeChar c).length :=
      List.length_pos_iff.2 String.utf8EncodeChar_ne_nil
    exact ⟨Nat.lt_add_of_pos_right hpos, (h.moveTo hsize hr (Utf8.isText_encodeChar c)).isValid⟩
  · rintro i ⟨hlt, hvalid⟩
    obtain ⟨n, rfl⟩ := Nat.exists_eq_add_of_lt hlt
    apply Nat.le_of_not_lt
    intro hinside
    have hn : n + 1 < (String.utf8EncodeChar c).length := by omega
    -- Inside the character no byte may start one.
    have htext := (isValid_iff_isText.1 hvalid).2
    rw [Nat.add_assoc, ← List.drop_drop, ← h.remaining_eq hsize, hr,
      List.drop_append_of_le_length (Nat.le_of_lt hn), List.drop_eq_getElem_cons hn] at htext
    have hfirst := htext.isUTF8FirstByte
    rw [UInt8.isUTF8FirstByte_getElem_utf8EncodeChar] at hfirst
    exact absurd hfirst n.succ_ne_zero

/-- Behind the bytes of a class there is the first place with no such byte. -/
theorem isLeast_not_test (h : p.OnBoundary text) (hsize : text.utf8ByteSize ≤ maxOffset)
    (q : UInt8 → Bool) :
    IsLeast {i | p.offset ≤ i ∧ ∀ b, (Utf8.bytesOf text)[i]? = some b → ¬ q b}
      (p.offset + (p.remaining.takeWhile q).length) := by
  constructor
  · refine ⟨Nat.le_add_right .., fun b hb => ?_⟩
    rw [h.getElem?_add hsize, ← List.head?_drop, drop_length_takeWhile] at hb
    have hnot := List.head?_dropWhile_not q p.remaining
    rw [hb] at hnot
    simpa using hnot
  · rintro i ⟨hle, hall⟩
    obtain ⟨n, rfl⟩ := Nat.exists_eq_add_of_le hle
    apply Nat.le_of_not_lt
    intro hlt
    have hn : n < (p.remaining.takeWhile q).length := Nat.lt_of_add_lt_add_left hlt
    have hn' : n < p.remaining.length :=
      Nat.lt_of_lt_of_le hn (List.takeWhile_prefix q).length_le
    apply hall p.remaining[n]
    · rw [h.getElem?_add hsize, List.getElem?_eq_getElem hn']
    · rw [← (List.takeWhile_prefix q).getElem hn]
      exact mem_takeWhile (List.getElem_mem hn)

/-- Over bytes that spell characters every move leads to a place between characters. -/
theorem leads_moveTo (h : p.OnBoundary text) (hsize : text.utf8ByteSize ≤ maxOffset)
    (hr : p.remaining = w ++ r) (hw : Utf8.IsText w) {m : Move}
    (hchar : m = .character → ∃ c, w = String.utf8EncodeChar c)
    (hrun : ∀ c, m.class? = some c → w = p.remaining.takeWhile c.test) :
    m.Leads text p (p.moveTo (p.offset + w.length)) where
  onBoundary := h.moveTo hsize hr hw
  offset_le := Nat.le_add_right ..
  le_size := (h.moveTo hsize hr hw).isValid.le_utf8ByteSize
  character hm := by
    obtain ⟨c, rfl⟩ := hchar hm
    refine ⟨h.isLeast_isValid hsize hr, ?_⟩
    obtain ⟨b, l, hc⟩ := List.exists_cons_of_ne_nil (String.utf8EncodeChar_ne_nil (c := c))
    refine ⟨b, ?_, ?_⟩
    · have hget := h.getElem?_add hsize 0
      rwa [hr, hc] at hget
    · rw [Utf8.width_head hc, hc]
      rfl
  run c hc := by
    rw [hrun c hc]
    exact h.isLeast_not_test hsize c.test

end Position.OnBoundary

/-! ## One move -/

section Move

variable {text : String} {p : Position}

namespace Position.OnBoundary

theorem exists_advanceChar (h : p.OnBoundary text) (hsize : text.utf8ByteSize ≤ maxOffset)
    (hp : ¬ p.atEnd) : ∃ q, p.advanceChar = .ok q ∧ Move.character.Leads text p q := by
  have hin := h.inText hsize
  cases hr : p.remaining with
  | nil =>
    rw [hin.atEnd_eq, hr] at hp
    exact absurd rfl hp
  | cons b l =>
    obtain ⟨c, rest, hc, -, hw⟩ := (hr ▸ h.isText hsize).cons
    have htake : (b :: l).take (Utf8.width b) = String.utf8EncodeChar c := by
      rw [hw, hc, List.take_left]
    refine ⟨_, advanceChar_eq hin hr, ?_⟩
    rw [htake]
    apply h.leads_moveTo hsize (hr.trans hc) (Utf8.isText_encodeChar c)
    · exact fun _ => ⟨c, rfl⟩
    · exact nofun

theorem exists_skipWhile (h : p.OnBoundary text) (hsize : text.utf8ByteSize ≤ maxOffset)
    (c : AsciiClass) {m : Move} (hm : m.class? = some c) :
    ∃ q, p.skipWhile c.test = .ok q ∧ m.Leads text p q := by
  refine ⟨_, skipWhile_eq (h.inText hsize) c.test_zero, ?_⟩
  apply h.leads_moveTo hsize List.takeWhile_append_dropWhile.symm (c.isText_takeWhile _)
  · rintro rfl
    cases hm
  · intro d hd
    rw [hm] at hd
    rw [Option.some.inj hd]

theorem exists_skipToLineEnd (h : p.OnBoundary text) (hsize : text.utf8ByteSize ≤ maxOffset) :
    ∃ q, p.skipToLineEnd = .ok q ∧ Move.lineEnd.Leads text p q := by
  obtain ⟨r, hr⟩ := restOfLine_isPrefix p.remaining
  refine ⟨_, skipToLineEnd_eq (h.inText hsize), ?_⟩
  apply h.leads_moveTo hsize hr.symm (isText_restOfLine (h.isText hsize))
  · exact nofun
  · exact nofun

theorem exists_skipToStringMark (h : p.OnBoundary text) (hsize : text.utf8ByteSize ≤ maxOffset) :
    ∃ q mark, p.skipToStringMark = .ok (q, mark) ∧ Move.stringMark.Leads text p q := by
  have htext := h.isText hsize
  rcases skipToStringMark_eq (h.inText hsize) with ⟨heq, -⟩ | ⟨w, b, l, hr, -, hb, heq⟩
  · refine ⟨_, _, heq, ?_⟩
    exact h.leads_moveTo hsize (List.append_nil _).symm htext nofun nofun
  · have hascii : b < 0x80 := by
      rcases isStringMark_iff.1 hb with rfl | rfl | rfl <;> decide
    have hw := ((hr ▸ htext).cut (Utf8.isUTF8FirstByte_of_ascii hascii)).1
    exact ⟨_, _, heq, h.leads_moveTo hsize hr hw nofun nofun⟩

/-- A move that may be made is made, and goes as far as it should. -/
theorem exists_move (h : p.OnBoundary text) (hsize : text.utf8ByteSize ≤ maxOffset) {m : Move}
    (hm : p.allows m) : ∃ q, p.move m = .ok q ∧ m.Leads text p q := by
  cases m with
  | character =>
    apply h.exists_advanceChar hsize
    rw [allows, Bool.not_eq_true'] at hm
    simp [hm]
  | blanks => exact h.exists_skipWhile hsize .blank rfl
  | run c => exact h.exists_skipWhile hsize c rfl
  | lineEnd => exact h.exists_skipToLineEnd hsize
  | stringMark =>
    obtain ⟨q, mark, hq, hleads⟩ := h.exists_skipToStringMark hsize
    refine ⟨q, ?_, hleads⟩
    rw [move, hq]
    rfl

end Position.OnBoundary

end Move

/-! ## Runs -/

section Run

variable {text : String} {p : Position}

theorem Position.allowsAll_cons_iff {m : Move} {ms : List Move} {q : Position}
    (h : p.move m = .ok q) : p.allowsAll (m :: ms) ↔ p.allows m ∧ q.allowsAll ms := by
  rw [allowsAll, h, Bool.and_eq_true]

theorem Position.moveAll_cons {m : Move} {q : Position} (h : p.move m = .ok q) (ms : List Move) :
    p.moveAll (m :: ms) = q.moveAll ms := by
  rw [moveAll, h]
  rfl

/-- No move of a run fails, and each one leads from a place between characters to another. -/
theorem moves_keepToCharacters (ms : List Move) (hsize : text.utf8ByteSize ≤ maxOffset)
    (hp : p.OnBoundary text) (hms : p.allowsAll ms) :
    ∃ last, p.moveAll ms = .ok last ∧ last.OnBoundary text ∧ p.offset ≤ last.offset ∧
      ∀ front m back, ms = front ++ m :: back → ∃ q r, p.moveAll front = .ok q ∧
        q.move m = .ok r ∧ r.moveAll back = .ok last ∧ m.Leads text q r := by
  induction ms generalizing p with
  | nil =>
    refine ⟨p, rfl, hp, Nat.le_refl _, fun front m back hsplit => ?_⟩
    simp at hsplit
  | cons m ms ih =>
    have hm : p.allows m := by
      rw [Position.allowsAll, Bool.and_eq_true] at hms
      exact hms.1
    obtain ⟨q, hq, hleads⟩ := hp.exists_move hsize hm
    obtain ⟨last, hlast, hbound, hle, hsteps⟩ :=
      ih hleads.onBoundary ((Position.allowsAll_cons_iff hq).1 hms).2
    refine ⟨last, ?_, hbound, Nat.le_trans hleads.offset_le hle, ?_⟩
    · rw [Position.moveAll_cons hq, hlast]
    · intro front m' back hsplit
      cases front with
      | nil =>
        obtain ⟨rfl, rfl⟩ := List.cons.inj hsplit
        exact ⟨p, q, rfl, hq, hlast, hleads⟩
      | cons m'' front =>
        obtain ⟨rfl, htail⟩ := List.cons.inj hsplit
        obtain ⟨r, s, hr, hs, hback, hleads'⟩ := hsteps front m' back htail
        exact ⟨r, s, by rw [Position.moveAll_cons hq, hr], hs, hback, hleads'⟩

/-- Over a character, a blank, a digit and a letter to a string, and behind its quotation mark to
the end of the line. -/
theorem moves_keepToCharacters_line : "éé 7x\"é\r\n".utf8ByteSize ≤ maxOffset ∧
    ((Source.ofString "éé 7x\"é\r\n").start.moveTo 2).OnBoundary "éé 7x\"é\r\n" ∧
    ((Source.ofString "éé 7x\"é\r\n").start.moveTo 2).allowsAll
      [.character, .blanks, .run .digit, .run .word, .stringMark, .character, .lineEnd] ∧
    ∃ last, ((Source.ofString "éé 7x\"é\r\n").start.moveTo 2).moveAll
        [.character, .blanks, .run .digit, .run .word, .stringMark, .character, .lineEnd] =
          .ok last ∧
      last.OnBoundary "éé 7x\"é\r\n" ∧ 2 ≤ last.offset ∧
      ∀ front m back, [.character, .blanks, .run .digit, .run .word, .stringMark, .character,
          .lineEnd] = front ++ m :: back →
        ∃ q r, ((Source.ofString "éé 7x\"é\r\n").start.moveTo 2).moveAll front = .ok q ∧
          q.move m = .ok r ∧ r.moveAll back = .ok last ∧ m.Leads "éé 7x\"é\r\n" q r :=
  have hp : ((Source.ofString "éé 7x\"é\r\n").start.moveTo 2).OnBoundary "éé 7x\"é\r\n" :=
    ⟨rfl, by decide⟩
  have hms : ((Source.ofString "éé 7x\"é\r\n").start.moveTo 2).allowsAll
      [.character, .blanks, .run .digit, .run .word, .stringMark, .character, .lineEnd] := by
    decide +kernel
  ⟨by decide, hp, hms, moves_keepToCharacters _ (by decide) hp hms⟩

end Run

end Ivy
