import Ivy.Proofs.Utf8
import Ivy.Text.Ascii
import Mathlib.Data.List.TakeWhile

/-!
# The rest of a line, of a string and of a number

How far a comment, a string and a number go on, on lists of bytes.  A comment goes on to the end
of its line (`restOfLine`), before the line feed or before the carriage return of a line end of two
bytes; a string to a quotation mark that no backslash escapes (`restOfString?`), if there is one; a
number over its digits and a fraction (`restOfNumber`).
-/

namespace Ivy

/-! ## Lines -/

/-- Whether a line ends in front of `l`. -/
def atLineEnd : List UInt8 → Bool
  | [] => true
  | b :: l => b == lineFeed || b == carriageReturn && l.head? == some lineFeed

/-- The bytes of `l` up to the end of the line. -/
def restOfLine : List UInt8 → List UInt8
  | [] => []
  | b :: l => if atLineEnd (b :: l) then [] else b :: restOfLine l

theorem atLineEnd_cons_iff {b : UInt8} {l : List UInt8} : atLineEnd (b :: l) ↔
    b = lineFeed ∨ b = carriageReturn ∧ l.head? = some lineFeed := by
  simp [atLineEnd]

theorem restOfLine_isPrefix (l : List UInt8) : restOfLine l <+: l := by
  induction l with
  | nil => exact List.nil_prefix
  | cons b l ih =>
    rw [restOfLine]
    split
    · exact List.nil_prefix
    · exact (List.prefix_cons_inj b).2 ih

theorem restOfLine_of_not_mem {l : List UInt8} (h : lineFeed ∉ l) : restOfLine l = l := by
  induction l with
  | nil => rfl
  | cons b l ih =>
    rw [List.mem_cons, not_or] at h
    obtain ⟨hb, hl⟩ := h
    rw [restOfLine, ih hl, if_neg]
    rw [atLineEnd_cons_iff]
    rintro (rfl | ⟨-, hhead⟩)
    · exact hb rfl
    · exact hl (List.mem_of_head? hhead)

theorem not_mem_restOfLine (l : List UInt8) : lineFeed ∉ restOfLine l := by
  induction l with
  | nil => exact List.not_mem_nil
  | cons b l ih =>
    rw [restOfLine]
    split
    · exact List.not_mem_nil
    · next h =>
      rw [List.mem_cons, not_or]
      exact ⟨fun hb => h (atLineEnd_cons_iff.2 (.inl hb.symm)), ih⟩

/-- The first line feed ends the line, and so does a carriage return right before it. -/
theorem restOfLine_append {w : List UInt8} (h : lineFeed ∉ w) (l : List UInt8) :
    restOfLine (w ++ lineFeed :: l) =
      if w.getLast? = some carriageReturn then w.dropLast else w := by
  induction w with
  | nil => simp [restOfLine, atLineEnd]
  | cons b w ih =>
    rw [List.mem_cons, not_or] at h
    obtain ⟨hb, hw⟩ := h
    rw [List.cons_append, restOfLine, ih hw]
    cases w with
    | nil => by_cases hc : b = carriageReturn <;> simp [atLineEnd, Ne.symm hb, hc]
    | cons c w =>
      rw [if_neg, List.getLast?_cons_cons, List.dropLast_cons_cons]
      · split <;> rfl
      · rw [atLineEnd_cons_iff]
        rintro (rfl | ⟨-, hc⟩)
        · exact hb rfl
        · cases hc
          exact hw List.mem_cons_self

/-- What stands behind the line feed does not count, unless the line feed is the second byte of
its line end. -/
theorem restOfLine_append_lineFeed {l : List UInt8} (h : l.getLast? ≠ some carriageReturn)
    (r : List UInt8) : restOfLine (l ++ lineFeed :: r) = restOfLine l := by
  induction l with
  | nil => rfl
  | cons b l ih =>
    have hend : atLineEnd (b :: (l ++ lineFeed :: r)) = atLineEnd (b :: l) := by
      cases l with
      | nil =>
        have hb : b ≠ carriageReturn := fun hb => h (congrArg some hb)
        simp [atLineEnd, hb]
      | cons c l => rfl
    have hlast : l.getLast? ≠ some carriageReturn := by
      cases l with
      | nil => exact nofun
      | cons c l => rwa [List.getLast?_cons_cons] at h
    rw [List.cons_append, restOfLine, restOfLine, hend, ih hlast]

/-- A line ends in front of what its rest leaves. -/
theorem atLineEnd_drop (l : List UInt8) : atLineEnd (l.drop (restOfLine l).length) := by
  induction l with
  | nil => rfl
  | cons b l ih =>
    rw [restOfLine]
    split
    · assumption
    · exact ih

/-- No line ends in front of a byte of its rest. -/
theorem not_atLineEnd_drop {l : List UInt8} {k : Nat} (h : k < (restOfLine l).length) :
    ¬ atLineEnd (l.drop k) := by
  induction l generalizing k with
  | nil => exact absurd h (Nat.not_lt_zero k)
  | cons b l ih =>
    rw [restOfLine] at h
    split at h
    · exact absurd h (Nat.not_lt_zero k)
    · next hend =>
      cases k with
      | zero => exact hend
      | succ k => exact ih (Nat.lt_of_succ_lt_succ h)

/-- A carriage return right before the line feed is no byte of the rest of a line. -/
theorem getLast?_restOfLine_ne {l r : List UInt8}
    (h : l.drop (restOfLine l).length = lineFeed :: r) :
    (restOfLine l).getLast? ≠ some carriageReturn := by
  intro hlast
  have happend := List.prefix_iff_eq_append.1 (restOfLine_isPrefix l)
  rw [h] at happend
  have hrest := restOfLine_append (not_mem_restOfLine l) r
  rw [happend, if_pos hlast] at hrest
  have hlen := congrArg List.length hrest
  have hpos := List.length_pos_of_mem (List.mem_of_getLast? hlast)
  rw [List.length_dropLast] at hlen
  omega

theorem isText_restOfLine {l : List UInt8} (h : Utf8.IsText l) : Utf8.IsText (restOfLine l) := by
  have happend := List.prefix_iff_eq_append.1 (restOfLine_isPrefix l)
  have hend := atLineEnd_drop l
  cases hr : l.drop (restOfLine l).length with
  | nil =>
    rw [hr, List.append_nil] at happend
    rwa [happend]
  | cons b r =>
    rw [hr] at happend hend
    have hascii : b < 0x80 := by
      rcases atLineEnd_cons_iff.1 hend with rfl | ⟨rfl, -⟩ <;> decide
    exact ((happend ▸ h).cut (Utf8.isUTF8FirstByte_of_ascii hascii)).1

/-! ## Strings -/

/-- The bytes of `l` up to the quotation mark that closes a string, that mark included. -/
def restOfString? : List UInt8 → Option (List UInt8)
  | [] => none
  | b :: l =>
    if b == quotationMark then some [b]
    else if b == backslash then
      match l with
      | [] => none
      | c :: l => (restOfString? l).map (b :: c :: ·)
    else (restOfString? l).map (b :: ·)

theorem restOfString?_isPrefix {l w : List UInt8} (h : restOfString? l = some w) : w <+: l := by
  fun_induction restOfString? l generalizing w with
  | case1 => cases h
  | case2 b l =>
    cases h
    exact (List.prefix_cons_inj b).2 List.nil_prefix
  | case3 => cases h
  | case4 b _ _ c l ih =>
    obtain ⟨w', hw', rfl⟩ := Option.map_eq_some_iff.1 h
    exact (List.prefix_cons_inj b).2 ((List.prefix_cons_inj c).2 (ih hw'))
  | case5 b l _ _ ih =>
    obtain ⟨w', hw', rfl⟩ := Option.map_eq_some_iff.1 h
    exact (List.prefix_cons_inj b).2 (ih hw')

theorem eq_concat_of_restOfString? {l w : List UInt8} (h : restOfString? l = some w) :
    ∃ v, w = v ++ [quotationMark] := by
  fun_induction restOfString? l generalizing w with
  | case1 => cases h
  | case2 b l hb =>
    cases h
    exact ⟨[], by rw [eq_of_beq hb]; rfl⟩
  | case3 => cases h
  | case4 b _ _ c l ih =>
    obtain ⟨w', hw', rfl⟩ := Option.map_eq_some_iff.1 h
    obtain ⟨v, rfl⟩ := ih hw'
    exact ⟨b :: c :: v, rfl⟩
  | case5 b l _ _ ih =>
    obtain ⟨w', hw', rfl⟩ := Option.map_eq_some_iff.1 h
    obtain ⟨v, rfl⟩ := ih hw'
    exact ⟨b :: v, rfl⟩

theorem isText_restOfString? {l w : List UInt8} (hl : Utf8.IsText l)
    (h : restOfString? l = some w) : Utf8.IsText w := by
  obtain ⟨v, rfl⟩ := eq_concat_of_restOfString? h
  obtain ⟨r, rfl⟩ := restOfString?_isPrefix h
  rw [List.append_assoc] at hl
  have hv := (hl.cut (Utf8.isUTF8FirstByte_of_ascii (by decide))).1
  exact hv.append (Utf8.isText_cons (by decide) Utf8.isText_nil)

section Strings

variable {w l : List UInt8}

theorem restOfString?_quotationMark (l : List UInt8) :
    restOfString? (quotationMark :: l) = some [quotationMark] := by
  rw [restOfString?.eq_def]
  exact if_pos rfl

theorem restOfString?_backslash (c : UInt8) (l : List UInt8) :
    restOfString? (backslash :: c :: l) = (restOfString? l).map (backslash :: c :: ·) := by
  rw [restOfString?, if_neg (by decide), if_pos (by decide)]

theorem restOfString?_cons {b : UInt8} (hq : b ≠ quotationMark) (hb : b ≠ backslash)
    (l : List UInt8) : restOfString? (b :: l) = (restOfString? l).map (b :: ·) := by
  rw [restOfString?.eq_def]
  simp only [beq_iff_eq, hq, hb, if_false]

/-- Bytes that neither close a string nor escape go on it. -/
theorem restOfString?_append (h : ∀ b ∈ w, b ≠ quotationMark ∧ b ≠ backslash) (l : List UInt8) :
    restOfString? (w ++ l) = (restOfString? l).map (w ++ ·) := by
  induction w with
  | nil => exact Option.map_id'.symm
  | cons b w ih =>
    obtain ⟨⟨hq, hb⟩, hw⟩ := List.forall_mem_cons.1 h
    rw [List.cons_append, restOfString?_cons hq hb, ih hw, Option.map_map]
    rfl

theorem restOfString?_eq_none (h : ∀ b ∈ l, b ≠ quotationMark ∧ b ≠ backslash) :
    restOfString? l = none := by
  have := restOfString?_append h []
  rwa [List.append_nil] at this

theorem ne_of_not_ascii {b c : UInt8} (hb : 0x80 ≤ b) (hc : c < 0x80) : b ≠ c := by
  rintro rfl
  exact absurd hb (UInt8.not_le.2 hc)

/-- What stands behind a closed string does not count. -/
theorem restOfString?_append_right (h : restOfString? l = some w) (r : List UInt8) :
    restOfString? (l ++ r) = some w := by
  fun_induction restOfString? l generalizing w with
  | case1 | case3 => cases h
  | case2 b l hb =>
    cases h
    rw [eq_of_beq hb]
    exact restOfString?_quotationMark _
  | case4 b _ hb c l ih =>
    obtain ⟨w', hw', rfl⟩ := Option.map_eq_some_iff.1 h
    rw [eq_of_beq hb, List.cons_append, List.cons_append, restOfString?_backslash, ih hw',
      Option.map_some]
  | case5 b l hq hb ih =>
    obtain ⟨w', hw', rfl⟩ := Option.map_eq_some_iff.1 h
    rw [beq_iff_eq] at hq hb
    rw [List.cons_append, restOfString?_cons hq hb, ih hw', Option.map_some]

/-- A closed string is closed where it was if nothing stands behind it. -/
theorem restOfString?_self (h : restOfString? l = some w) : restOfString? w = some w := by
  fun_induction restOfString? l generalizing w with
  | case1 | case3 => cases h
  | case2 b l hb =>
    cases h
    rw [eq_of_beq hb]
    exact restOfString?_quotationMark []
  | case4 b _ hb c l ih =>
    obtain ⟨w', hw', rfl⟩ := Option.map_eq_some_iff.1 h
    rw [eq_of_beq hb, restOfString?_backslash, ih hw', Option.map_some]
  | case5 b l hq hb ih =>
    obtain ⟨w', hw', rfl⟩ := Option.map_eq_some_iff.1 h
    rw [beq_iff_eq] at hq hb
    rw [restOfString?_cons hq hb, ih hw', Option.map_some]

/-- A backslash takes the character behind it into the string, whatever it is. -/
theorem restOfString?_escape (c : Char) (l : List UInt8) :
    restOfString? (backslash :: (String.utf8EncodeChar c ++ l)) =
      (restOfString? l).map (backslash :: String.utf8EncodeChar c ++ ·) := by
  obtain ⟨b, w, hc⟩ := List.exists_cons_of_ne_nil (String.utf8EncodeChar_ne_nil (c := c))
  -- Behind the first byte of the character, no byte of it is ASCII.
  have hw : ∀ b ∈ w, b ≠ quotationMark ∧ b ≠ backslash := by
    rcases Utf8.encodeChar_cases c with ⟨b', -, hb'⟩ | h
    · rw [hc] at hb'
      cases hb'
      exact nofun
    · rw [hc] at h
      intro b hb
      have := h b (List.mem_cons_of_mem _ hb)
      exact ⟨ne_of_not_ascii this (by decide), ne_of_not_ascii this (by decide)⟩
  rw [hc, List.cons_append, restOfString?_backslash, restOfString?_append hw, Option.map_map]
  rfl

end Strings

/-! ## Runs -/

theorem isPrefix_takeWhile {q : UInt8 → Bool} {v l : List UInt8} (hl : v <+: l)
    (hv : ∀ b ∈ v, q b) : v <+: l.takeWhile q := by
  obtain ⟨r, rfl⟩ := hl
  rw [List.takeWhile_append_of_pos hv]
  exact List.prefix_append v _

theorem mem_takeWhile {q : UInt8 → Bool} {l : List UInt8} {b : UInt8}
    (h : b ∈ l.takeWhile q) : q b :=
  List.all_eq_true.1 List.all_takeWhile b h

theorem mem_takeWhile_ne {q : UInt8 → Bool} (hq : q lineFeed = false) (l : List UInt8) :
    ∀ x ∈ l.takeWhile q, x ≠ lineFeed := by
  rintro x hx rfl
  exact Bool.false_ne_true (hq.symm.trans (mem_takeWhile hx))

theorem drop_length_takeWhile (q : UInt8 → Bool) (l : List UInt8) :
    l.drop (l.takeWhile q).length = l.dropWhile q := by
  have h : (l.takeWhile q ++ l.dropWhile q).drop (l.takeWhile q).length = l.dropWhile q :=
    List.drop_left
  rwa [List.takeWhile_append_dropWhile] at h

/-- A run that is cut short, or ends with the bytes, goes on behind them over no other byte. -/
theorem takeWhile_append_cons {q : UInt8 → Bool} {c : UInt8} (hc : ¬ q c) (l r : List UInt8) :
    (l ++ c :: r).takeWhile q = l.takeWhile q := by
  rw [List.takeWhile_append, List.takeWhile_cons_of_neg hc, List.append_nil]
  split
  · next h => exact ((List.takeWhile_prefix q).eq_of_length h).symm
  · rfl

theorem dropWhile_append_cons {q : UInt8 → Bool} {c : UInt8} (hc : ¬ q c) (l r : List UInt8) :
    (l ++ c :: r).dropWhile q = l.dropWhile q ++ c :: r := by
  rw [← drop_length_takeWhile, takeWhile_append_cons hc,
    List.drop_append_of_le_length (List.takeWhile_prefix q).length_le, drop_length_takeWhile]

/-! ## Numbers -/

/-- A full stop and the digits behind it, if `l` starts with a full stop and a digit. -/
def fraction : List UInt8 → List UInt8
  | b :: c :: l => if b == fullStop && isDigit c then b :: (c :: l).takeWhile isDigit else []
  | _ => []

/-- The bytes of `l` that go on a number. -/
def restOfNumber (l : List UInt8) : List UInt8 :=
  l.takeWhile isDigit ++ fraction (l.dropWhile isDigit)

theorem fraction_isPrefix (l : List UInt8) : fraction l <+: l := by
  unfold fraction
  split
  · split
    · exact (List.prefix_cons_inj _).2 (List.takeWhile_prefix _)
    · exact List.nil_prefix
  · exact List.nil_prefix

theorem restOfNumber_isPrefix (l : List UInt8) : restOfNumber l <+: l := by
  have h := (List.prefix_append_right_inj (l.takeWhile isDigit)).2
    (fraction_isPrefix (l.dropWhile isDigit))
  rwa [List.takeWhile_append_dropWhile] at h

theorem fraction_fullStop (l : List UInt8) : fraction (fullStop :: l) =
    if isDigit ((l.head?).getD 0) then fullStop :: l.takeWhile isDigit else [] := by
  cases l with
  | nil => rfl
  | cons c l => rw [fraction, beq_self_eq_true, Bool.true_and, List.head?_cons, Option.getD_some]

theorem fraction_of_ne {l : List UInt8} (h : l.head? ≠ some fullStop) : fraction l = [] := by
  unfold fraction
  split
  · next b c l =>
    rw [if_neg]
    simpa using fun hb : b = fullStop => absurd (by simp [hb]) h
  · rfl

theorem fraction_cons_of_ne {b : UInt8} (hb : b ≠ fullStop) (l : List UInt8) :
    fraction (b :: l) = [] :=
  fraction_of_ne fun hhead => hb (Option.some.inj hhead)

/-- Digits in front of a full stop and a digit have a fraction. -/
theorem restOfNumber_append {v : List UInt8} {b : UInt8} (hv : ∀ c ∈ v, isDigit c)
    (hb : isDigit b) (l : List UInt8) : restOfNumber (v ++ fullStop :: b :: l) =
      v ++ fullStop :: (b :: l).takeWhile isDigit := by
  have hstop : ¬ isDigit fullStop := by decide
  rw [restOfNumber, List.takeWhile_append_of_pos hv, List.dropWhile_append_of_pos hv,
    List.takeWhile_cons_of_neg hstop, List.dropWhile_cons_of_neg hstop, fraction_fullStop,
    List.head?_cons, Option.getD_some, if_pos hb, List.append_nil]

/-- Behind a byte that can go on no number, nothing counts. -/
theorem restOfNumber_append_cons {c : UInt8} (hdigit : ¬ isDigit c) (hstop : c ≠ fullStop)
    (l r : List UInt8) : restOfNumber (l ++ c :: r) = restOfNumber l := by
  rw [restOfNumber, restOfNumber, takeWhile_append_cons hdigit, dropWhile_append_cons hdigit]
  congr 1
  cases l.dropWhile isDigit with
  | nil => exact fraction_cons_of_ne hstop r
  | cons x d =>
    cases d with
    | nil =>
      rw [List.cons_append, List.nil_append, fraction, if_neg]
      · rfl
      · rw [Bool.and_eq_true]
        exact fun h => hdigit h.2
    | cons y d =>
      rw [List.cons_append, List.cons_append, fraction, fraction, ← List.cons_append,
        takeWhile_append_cons hdigit]

theorem fraction_cases (l : List UInt8) : fraction l = [] ∨
    ∃ c d, isDigit c ∧ fraction l = fullStop :: (c :: d).takeWhile isDigit := by
  unfold fraction
  split
  · next b c d =>
    split
    · next h =>
      rw [Bool.and_eq_true, beq_iff_eq] at h
      exact .inr ⟨c, d, h.2, by rw [h.1]⟩
    · exact .inl rfl
  · exact .inl rfl

/-- A number goes on over itself if nothing stands behind it. -/
theorem restOfNumber_restOfNumber (l : List UInt8) :
    restOfNumber (restOfNumber l) = restOfNumber l := by
  have hdigits : ∀ c ∈ l.takeWhile isDigit, isDigit c := fun c hc => mem_takeWhile hc
  have hl : restOfNumber l = l.takeWhile isDigit ++ fraction (l.dropWhile isDigit) := rfl
  rcases fraction_cases (l.dropWhile isDigit) with hf | ⟨c, d, hc, hf⟩
  · rw [hl, hf, restOfNumber, List.takeWhile_append_of_pos hdigits,
      List.dropWhile_append_of_pos hdigits, List.takeWhile_nil, List.dropWhile_nil,
      List.append_nil]
    exact List.append_nil _
  · rw [List.takeWhile_cons_of_pos hc] at hf
    rw [hl, hf, restOfNumber_append hdigits hc, List.takeWhile_cons_of_pos hc, List.takeWhile_idem]

theorem mem_restOfNumber {l : List UInt8} {b : UInt8} (h : b ∈ restOfNumber l) :
    isDigit b ∨ b = fullStop := by
  rcases List.mem_append.1 h with h | h
  · exact .inl (mem_takeWhile h)
  · unfold fraction at h
    split at h
    · split at h
      · next hd =>
        rw [Bool.and_eq_true, beq_iff_eq] at hd
        rcases List.mem_cons.1 h with rfl | h
        · exact .inr hd.1
        · exact .inl (mem_takeWhile h)
      · cases h
    · cases h

theorem mem_restOfNumber_ne (l : List UInt8) : ∀ x ∈ restOfNumber l, x ≠ lineFeed := by
  rintro x hx rfl
  rcases mem_restOfNumber hx with h | h
  · exact absurd h (by decide)
  · exact absurd h (by decide)

end Ivy
