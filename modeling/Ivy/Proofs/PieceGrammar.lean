import Ivy.Proofs.Grammar
import Ivy.Proofs.Pieces

/-!
# Pieces and the words of kinds

A piece that is a token is a word of its kind (`Piece.Starts.mem_language`).  Where a word of any
kind stands, the first piece is a token that is as long or longer, or a comment
(`covers_of_mem_language`).  So a defect stands only where no word does.
-/

namespace Ivy

open Kind

/-! ## Kinds with one spelling -/

section Spellings

variable {b second : UInt8} {k joined alone : Kind} {w : List UInt8}

theorem spellings_le_language (h : w ∈ k.spellings) : w ∈ k.language := by
  cases k with
  | identifier | literalNumber | literalString | commentLine => cases h
  | _ => exact h

theorem mem_spellings_of_mem_singles (h : (b, k) ∈ singles) : [b] ∈ k.spellings :=
  (by decide : ∀ x ∈ singles, x.2.spelling?.map Utf8.bytesOf = some [x.1]) _ h

theorem mem_spellings_of_mem_pairs (h : (b, second, joined, alone) ∈ pairs) :
    [b, second] ∈ joined.spellings ∧ [b] ∈ alone.spellings :=
  (by decide : ∀ x ∈ pairs, x.2.2.1.spelling?.map Utf8.bytesOf = some [x.1, x.2.1] ∧
    x.2.2.2.spelling?.map Utf8.bytesOf = some [x.1]) _ h

theorem mem_spellings_unique {v : List UInt8} (hv : v ∈ k.spellings) (hw : w ∈ k.spellings) :
    v = w :=
  Option.some.inj (Eq.trans (Eq.symm hv) hw)

/-- A kind with one spelling is a keyword, or the lexer finds it by its first byte. -/
theorem spellings_cases (h : w ∈ k.spellings) :
    k.isKeyword ∨ w = [slash] ∨ (∃ b, (b, k) ∈ singles ∧ w = [b]) ∨
      ∃ b second joined alone, (b, second, joined, alone) ∈ pairs ∧
        (w = [b] ∨ w = [b, second]) := by
  have hcases : k.spelling?.isSome → k.isKeyword ∨ k = .slashForward ∨
      (∃ x ∈ singles, x.2 = k) ∨ ∃ x ∈ pairs, x.2.2.1 = k ∨ x.2.2.2 = k := by
    cases k <;> decide
  have hsome : k.spelling?.isSome := by
    obtain ⟨s, hs, -⟩ := Option.map_eq_some_iff.1 h
    rw [hs]
    rfl
  rcases hcases hsome with hk | rfl | ⟨⟨b, _⟩, hb, rfl⟩ | ⟨⟨b, second, joined, alone⟩, hb, hk⟩
  · exact .inl hk
  · exact .inr (.inl (mem_spellings_unique h (by decide : [slash] ∈ slashForward.spellings)))
  · exact .inr (.inr (.inl ⟨b, hb, mem_spellings_unique h (mem_spellings_of_mem_singles hb)⟩))
  · obtain ⟨hjoined, halone⟩ := mem_spellings_of_mem_pairs hb
    refine .inr (.inr (.inr ⟨b, second, joined, alone, hb, ?_⟩))
    rcases hk with rfl | rfl
    · exact .inr (mem_spellings_unique h hjoined)
    · exact .inl (mem_spellings_unique h halone)

/-- A keyword is spelled like a word. -/
theorem mem_words_of_mem_spellings (hk : k.isKeyword) (h : w ∈ k.spellings) : w ∈ words := by
  have hletters : ∀ k ∈ Kind.all, k.isKeyword → ∀ w ∈ k.spelling?.map Utf8.bytesOf,
      w.head?.any isLetter ∧ w.all isWordByte := by decide
  obtain ⟨hhead, hall⟩ := hletters k (Kind.mem_all k) hk w h
  cases w with
  | nil => cases hhead
  | cons b v => exact mem_words_iff.2 ⟨b, v, rfl, hhead, fun c hc =>
      List.all_eq_true.1 hall c (List.mem_cons_of_mem b hc)⟩

end Spellings

/-! ## Pieces are words -/

theorem isText_of_mem_words {w : List UInt8} (h : w ∈ words) : Utf8.IsText w := by
  obtain ⟨b, v, rfl, hb, hv⟩ := mem_words_iff.1 h
  exact Utf8.isText_of_ascii (List.forall_mem_cons.2
    ⟨lt_of_isWordByte (isWordByte_of_isLetter hb), fun c hc => lt_of_isWordByte (hv c hc)⟩)

theorem mem_language_wordKind {w : List UInt8} (h : w ∈ words) : w ∈ (wordKind w).language := by
  have htext := (isText_of_mem_words h).bytesOf_textOf
  unfold wordKind
  cases hk : Kind.ofKeyword? (Utf8.textOf w.toByteArray) with
  | some k =>
    obtain ⟨-, hs⟩ := Kind.ofKeyword?_eq_some_iff.1 hk
    apply spellings_le_language
    show k.spelling?.map Utf8.bytesOf = some w
    rw [hs, Option.map_some, htext]
  | none =>
    refine (Language.mem_sub ..).2 ⟨h, ?_⟩
    rintro ⟨k, hkey, hw⟩
    obtain ⟨s, hs, rfl⟩ := Option.map_eq_some_iff.1 hw
    rw [Utf8.textOf_bytesOf, Kind.ofKeyword?_eq_some_iff.2 ⟨hkey, hs⟩] at hk
    cases hk

theorem mem_numbers_of_digit {b : UInt8} (hb : isDigit b) (l : List UInt8) :
    b :: restOfNumber l ∈ numbers := by
  have hrun (b : UInt8) (hb : isDigit b) (l : List UInt8) : b :: l.takeWhile isDigit ∈ digits :=
    mem_digits_iff.2 ⟨b, _, rfl, hb, fun c hc => mem_takeWhile hc⟩
  rw [mem_numbers_iff, restOfNumber]
  unfold fraction
  split
  · next c d l' _ =>
    split
    · next hd =>
      rw [Bool.and_eq_true, beq_iff_eq] at hd
      refine .inr ⟨_, hrun b hb l, _, hrun d hd.2 l', ?_⟩
      rw [hd.1, List.takeWhile_cons, if_pos hd.2]
      rfl
    · rw [List.append_nil]
      exact .inl (hrun b hb l)
  · rw [List.append_nil]
    exact .inl (hrun b hb l)

/-- A piece that is a token is a word of its kind. -/
theorem Piece.Starts.mem_language {b : UInt8} {l : List UInt8} {s : Piece} {k : Kind}
    (h : s.Starts b l) (ht : Utf8.IsText (b :: l)) (hk : s.form = .token k) :
    s.bytes ∈ k.language := by
  cases h with
  | unexpected | blanks | lineEnd | longLineEnd | bareCarriageReturn | unterminated => cases hk
  | single kind hb =>
    cases hk
    exact spellings_le_language (mem_spellings_of_mem_singles hb)
  | joined second kind alone l' hb =>
    cases hk
    exact spellings_le_language (mem_spellings_of_mem_pairs hb).1
  | alone second joined kind hb =>
    cases hk
    exact spellings_le_language (mem_spellings_of_mem_pairs hb).2
  | comment l' hb =>
    cases hk
    rw [hb]
    exact mem_comments_iff.2 ⟨_, rfl, not_mem_restOfLine l'⟩
  | slashForward hb =>
    cases hk
    rw [hb]
    exact (by decide : [slash] ∈ Kind.slashForward.spellings)
  | string w hb hw =>
    cases hk
    subst hb
    obtain ⟨cs, rfl⟩ := ht.tail (by decide)
    obtain ⟨v, hv, rfl⟩ := exists_items cs hw
    exact mem_strings_iff.2 ⟨v, hv, rfl⟩
  | number hb =>
    cases hk
    exact mem_numbers_of_digit hb l
  | word hb =>
    cases hk
    exact mem_language_wordKind (mem_words_iff.2 ⟨b, _, rfl, hb, fun c hc => mem_takeWhile hc⟩)

/-! ## Where a word stands -/

/-- Whether the piece is a token at least as long as the word `w`, or a comment. -/
def Piece.Covers (s : Piece) (w : List UInt8) : Prop :=
  ∃ k, s.form = .token k ∧ (k ≠ .commentLine → w.length ≤ s.bytes.length)

section Covers

variable {b : UInt8} {l w : List UInt8}

theorem covers_of_mem_words (hw : w <+: b :: l) (h : w ∈ words) : (pieceFrom b l).Covers w := by
  obtain ⟨b, v, rfl, hb, hv⟩ := mem_words_iff.1 h
  obtain ⟨rfl, hvl⟩ := List.cons_prefix_cons.1 hw
  simp only [Piece.Covers, pieceFrom_of_isLetter hb]
  exact ⟨_, rfl, fun _ => Nat.succ_le_succ (isPrefix_takeWhile hvl hv).length_le⟩

theorem covers_of_mem_numbers (hw : w <+: b :: l) (h : w ∈ numbers) :
    (pieceFrom b l).Covers w := by
  have number {b : UInt8} {v : List UInt8} (hb : isDigit b)
      (hv : v.length ≤ (restOfNumber l).length) : (pieceFrom b l).Covers (b :: v) := by
    simp only [Piece.Covers, pieceFrom_of_isDigit hb]
    exact ⟨_, rfl, fun _ => Nat.succ_le_succ hv⟩
  rcases mem_numbers_iff.1 h with h | ⟨u, hu, v, hv, rfl⟩
  · obtain ⟨b, v, rfl, hb, hv⟩ := mem_digits_iff.1 h
    obtain ⟨rfl, hvl⟩ := List.cons_prefix_cons.1 hw
    apply number hb
    rw [restOfNumber, List.length_append]
    exact Nat.le_add_right_of_le (isPrefix_takeWhile hvl hv).length_le
  · obtain ⟨b, u, rfl, hb, hu⟩ := mem_digits_iff.1 hu
    obtain ⟨d, v, rfl, hd, hv⟩ := mem_digits_iff.1 hv
    rw [List.cons_append] at hw ⊢
    obtain ⟨rfl, hul⟩ := List.cons_prefix_cons.1 hw
    obtain ⟨r, rfl⟩ := hul
    apply number hb
    have hrun : d :: v <+: (d :: (v ++ r)).takeWhile isDigit :=
      isPrefix_takeWhile (List.prefix_append (d :: v) r) (List.forall_mem_cons.2 ⟨hd, hv⟩)
    rw [List.append_assoc, List.cons_append, List.cons_append, restOfNumber_append hu hd,
      List.length_append, List.length_append]
    exact Nat.add_le_add_left (Nat.succ_le_succ hrun.length_le) _

theorem covers_of_mem_strings (hw : w <+: b :: l) (h : w ∈ strings) :
    (pieceFrom b l).Covers w := by
  obtain ⟨v, hv, rfl⟩ := mem_strings_iff.1 h
  obtain ⟨rfl, r, rfl⟩ := List.cons_prefix_cons.1 hw
  have hrest : restOfString? (v ++ [quotationMark] ++ r) = some (v ++ [quotationMark]) := by
    rw [List.append_assoc, restOfString?_items hv, List.singleton_append,
      restOfString?_quotationMark, Option.map_some]
  simp only [Piece.Covers, pieceFrom_quotationMark, stringPiece, hrest]
  exact ⟨_, rfl, fun _ => Nat.le_refl _⟩

theorem covers_of_mem_comments (hw : w <+: b :: l) (h : w ∈ comments) :
    (pieceFrom b l).Covers w := by
  obtain ⟨v, rfl, -⟩ := mem_comments_iff.1 h
  obtain ⟨rfl, hvl⟩ := List.cons_prefix_cons.1 hw
  obtain ⟨r, rfl⟩ := hvl
  have hlead : Lead.of slash = .slash := by decide
  simp only [Piece.Covers, pieceFrom, hlead, List.cons_append, List.head?_cons, if_true]
  exact ⟨_, rfl, fun hne => absurd rfl hne⟩

/-- A token is at least one byte long. -/
theorem covers_of_length_le {k : Kind} (hk : (pieceFrom b l).form = .token k)
    (h : w.length ≤ 1) : (pieceFrom b l).Covers w :=
  ⟨k, hk, fun _ => Nat.le_trans h (starts_pieceFrom b l).length_pos⟩

theorem covers_slash (l : List UInt8) : (pieceFrom slash l).Covers [slash] := by
  have hlead : Lead.of slash = .slash := by decide
  have htoken : ∃ k, (pieceFrom slash l).form = .token k := by
    simp only [pieceFrom, hlead]
    split
    · exact ⟨_, rfl⟩
    · exact ⟨_, rfl⟩
  obtain ⟨k, hk⟩ := htoken
  exact covers_of_length_le hk (Nat.le_refl 1)

theorem covers_of_mem_singles {k : Kind} (h : (b, k) ∈ singles) (l : List UInt8) :
    (pieceFrom b l).Covers [b] := by
  have hne : Lead.single k ≠ .other := by simp
  have hlead : Lead.of b = .single k := (Lead.of_eq_iff hne).2 h
  have htoken : (pieceFrom b l).form = .token k := by simp only [pieceFrom, hlead]
  exact covers_of_length_le htoken (Nat.le_refl 1)

theorem covers_of_mem_pairs {second : UInt8} {joined alone : Kind}
    (h : (b, second, joined, alone) ∈ pairs) (l : List UInt8) :
    (pieceFrom b l).Covers [b] ∧ (pieceFrom b (second :: l)).Covers [b, second] := by
  have hne : Lead.pair second joined alone ≠ .other := by simp
  have hlead : Lead.of b = .pair second joined alone := (Lead.of_eq_iff hne).2 h
  constructor
  · have htoken : ∃ k, (pieceFrom b l).form = .token k := by
      simp only [pieceFrom, hlead]
      split
      · exact ⟨_, rfl⟩
      · exact ⟨_, rfl⟩
    obtain ⟨k, hk⟩ := htoken
    exact covers_of_length_le hk (Nat.le_refl 1)
  · simp only [Piece.Covers, pieceFrom, hlead, List.head?_cons, if_true]
    exact ⟨_, rfl, fun _ => Nat.le_refl _⟩

theorem covers_of_mem_spellings {k : Kind} (hw : w <+: b :: l) (h : w ∈ k.spellings) :
    (pieceFrom b l).Covers w := by
  rcases spellings_cases h with hk | rfl | ⟨c, hc, rfl⟩ | ⟨c, second, joined, alone, hc, rfl | rfl⟩
  · exact covers_of_mem_words hw (mem_words_of_mem_spellings hk h)
  · obtain ⟨rfl, -⟩ := List.cons_prefix_cons.1 hw
    exact covers_slash l
  · obtain ⟨rfl, -⟩ := List.cons_prefix_cons.1 hw
    exact covers_of_mem_singles hc l
  · obtain ⟨rfl, -⟩ := List.cons_prefix_cons.1 hw
    exact (covers_of_mem_pairs hc l).1
  · obtain ⟨rfl, r, rfl⟩ := List.cons_prefix_cons.1 hw
    exact (covers_of_mem_pairs hc r).2

/-- Where a word stands the first piece is a token that is as long, or a comment. -/
theorem covers_of_mem_language {k : Kind} (hw : w <+: b :: l) (h : w ∈ k.language) :
    (pieceFrom b l).Covers w := by
  cases k with
  | identifier => exact covers_of_mem_words hw ((Language.mem_sub ..).1 h).1
  | literalNumber => exact covers_of_mem_numbers hw h
  | literalString => exact covers_of_mem_strings hw h
  | commentLine => exact covers_of_mem_comments hw h
  | _ => exact covers_of_mem_spellings hw h

end Covers

end Ivy
