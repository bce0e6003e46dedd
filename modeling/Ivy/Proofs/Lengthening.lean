import Ivy.Proofs.Pieces
import Ivy.Proofs.SourceLines

/-!
# Longer line ends

`lengthen` puts a carriage return in front of every line feed.  In bytes without carriage returns
of their own, the pieces are the same as before, lengthened (`pieces_lengthen`), and every line is
shown as before (`map_shownLine_lengthen`).
-/

namespace Ivy

/-- The bytes `l` with a carriage return in front of every line feed. -/
def lengthen (l : List UInt8) : List UInt8 :=
  l.flatMap fun b => if b = lineFeed then [carriageReturn, lineFeed] else [b]

/-- Lists of bytes by their line feeds. -/
@[elab_as_elim]
theorem lineFeed_induction {motive : List UInt8 → Prop} (nil : motive [])
    (lineFeed : ∀ l, motive l → motive (Ivy.lineFeed :: l))
    (other : ∀ b l, b ≠ Ivy.lineFeed → motive l → motive (b :: l)) (l : List UInt8) :
    motive l := by
  induction l with
  | nil => exact nil
  | cons b l ih =>
    by_cases hb : b = Ivy.lineFeed
    · exact hb ▸ lineFeed l ih
    · exact other b l hb ih

section Bytes

variable {b : UInt8} {l w : List UInt8}

@[simp] theorem lengthen_append (v w : List UInt8) :
    lengthen (v ++ w) = lengthen v ++ lengthen w := List.flatMap_append

theorem lengthen_lineFeed (l : List UInt8) :
    lengthen (lineFeed :: l) = carriageReturn :: lineFeed :: lengthen l := rfl

theorem lengthen_cons (h : b ≠ lineFeed) (l : List UInt8) :
    lengthen (b :: l) = b :: lengthen l := by
  rw [lengthen, List.flatMap_cons, if_neg h]
  rfl

theorem lengthen_of_not_mem (h : lineFeed ∉ l) : lengthen l = l := by
  induction l with
  | nil => rfl
  | cons b l ih =>
    rw [List.mem_cons, not_or] at h
    rw [lengthen_cons (Ne.symm h.1), ih h.2]

theorem lengthen_ne_nil (b : UInt8) (l : List UInt8) : lengthen (b :: l) ≠ [] := by
  by_cases hb : b = lineFeed
  · rw [hb, lengthen_lineFeed]
    exact List.cons_ne_nil _ _
  · rw [lengthen_cons hb]
    exact List.cons_ne_nil _ _

theorem drop_lengthen (h : w <+: l) :
    (lengthen l).drop (lengthen w).length = lengthen (l.drop w.length) := by
  obtain ⟨r, rfl⟩ := h
  rw [lengthen_append, List.drop_left, List.drop_left]

theorem count_lengthen (l : List UInt8) : (lengthen l).count lineFeed = l.count lineFeed := by
  induction l using lineFeed_induction with
  | nil => rfl
  | lineFeed l ih =>
    rw [lengthen_lineFeed, List.count_cons_of_ne (by decide), List.count_cons_self,
      List.count_cons_self, ih]
  | other b l hb ih => rw [lengthen_cons hb, List.count_cons_of_ne hb, List.count_cons_of_ne hb, ih]

theorem length_lengthen (l : List UInt8) :
    (lengthen l).length = l.length + l.count lineFeed := by
  induction l using lineFeed_induction with
  | nil => rfl
  | lineFeed l ih =>
    simp only [lengthen_lineFeed, List.count_cons_self, List.length_cons, ih]
    omega
  | other b l hb ih =>
    rw [lengthen_cons hb, List.count_cons_of_ne hb, List.length_cons, List.length_cons, ih,
      Nat.add_right_comm]

/-- Only a line feed becomes another first byte. -/
theorem head?_lengthen {x : UInt8} (hcr : x ≠ carriageReturn) (hlf : x ≠ lineFeed)
    (l : List UInt8) : (lengthen l).head? = some x ↔ l.head? = some x := by
  cases l using lineFeed_induction with
  | nil => rfl
  | lineFeed l => simp [lengthen_lineFeed, hcr.symm, hlf.symm]
  | other b l hb => rw [lengthen_cons hb, List.head?_cons, List.head?_cons]

end Bytes

/-! ## Rests -/

section Rests

variable {l : List UInt8} {q : UInt8 → Bool}

/-- A run that takes no byte of a line end ends where it did. -/
theorem takeWhile_lengthen (hcr : ¬ q carriageReturn) (hlf : ¬ q lineFeed) (l : List UInt8) :
    (lengthen l).takeWhile q = l.takeWhile q := by
  induction l using lineFeed_induction with
  | nil => rfl
  | lineFeed l =>
    rw [lengthen_lineFeed, List.takeWhile_cons_of_neg hcr, List.takeWhile_cons_of_neg hlf]
  | other b l hb ih => rw [lengthen_cons hb, List.takeWhile_cons, List.takeWhile_cons, ih]

theorem dropWhile_lengthen (hcr : ¬ q carriageReturn) (hlf : ¬ q lineFeed) (l : List UInt8) :
    (lengthen l).dropWhile q = lengthen (l.dropWhile q) := by
  induction l using lineFeed_induction with
  | nil => rfl
  | lineFeed l =>
    rw [List.dropWhile_cons_of_neg hlf, lengthen_lineFeed, List.dropWhile_cons_of_neg hcr]
  | other b l hb ih =>
    rw [lengthen_cons hb, List.dropWhile_cons, List.dropWhile_cons, ih]
    split
    · rfl
    · rw [lengthen_cons hb]

theorem restOfLine_lengthen (h : carriageReturn ∉ l) :
    restOfLine (lengthen l) = restOfLine l := by
  induction l using lineFeed_induction with
  | nil => rfl
  | lineFeed l => rfl
  | other b l hb ih =>
    rw [List.mem_cons, not_or] at h
    have hend (l : List UInt8) : atLineEnd (b :: l) = false := by
      simp [atLineEnd, hb, Ne.symm h.1]
    rw [lengthen_cons hb, restOfLine, restOfLine, hend, hend, ih h.2]

theorem fraction_lengthen (l : List UInt8) : fraction (lengthen l) = fraction l := by
  cases l using lineFeed_induction with
  | nil => rfl
  | lineFeed l =>
    rw [lengthen_lineFeed, fraction_cons_of_ne (by decide), fraction_cons_of_ne (by decide)]
  | other b l hb =>
    rw [lengthen_cons hb]
    cases l using lineFeed_induction with
    | nil => rfl
    | lineFeed l =>
      have hdigit : isDigit carriageReturn = false ∧ isDigit lineFeed = false := by decide
      rw [lengthen_lineFeed, fraction, fraction, hdigit.1, hdigit.2, Bool.and_false]
      rfl
    | other c l hc =>
      have hrun := takeWhile_lengthen (q := isDigit) (by decide) (by decide) (c :: l)
      rw [lengthen_cons hc] at hrun ⊢
      rw [fraction, fraction, hrun]

theorem restOfNumber_lengthen (l : List UInt8) : restOfNumber (lengthen l) = restOfNumber l := by
  rw [restOfNumber, restOfNumber, takeWhile_lengthen (by decide) (by decide),
    dropWhile_lengthen (by decide) (by decide), fraction_lengthen]

/-- A string takes up the same line ends, now longer. -/
theorem restOfString?_lengthen (l : List UInt8) :
    restOfString? (lengthen l) = (restOfString? l).map lengthen := by
  fun_induction restOfString? l with
  | case1 => rfl
  | case2 b l hb =>
    obtain rfl := eq_of_beq hb
    rw [lengthen_cons (by decide), restOfString?_quotationMark]
    rfl
  | case3 b hq hb =>
    obtain rfl := eq_of_beq hb
    rfl
  | case4 b hq hb c l ih =>
    obtain rfl := eq_of_beq hb
    rw [lengthen_cons (by decide)]
    -- Of an escaped line end the carriage return is escaped, and the line feed goes on the string.
    by_cases hc : c = lineFeed
    · rw [hc, lengthen_lineFeed, restOfString?_backslash,
        restOfString?_cons (by decide) (by decide), ih, Option.map_map, Option.map_map,
        Option.map_map]
      rfl
    · rw [lengthen_cons hc, restOfString?_backslash, ih, Option.map_map, Option.map_map]
      congr 1
      funext w
      exact (congrArg (backslash :: ·) (lengthen_cons hc w)).symm
  | case5 b l hq hb ih =>
    by_cases hlf : b = lineFeed
    · rw [hlf, lengthen_lineFeed, restOfString?_cons (by decide) (by decide),
        restOfString?_cons (by decide) (by decide), ih, Option.map_map, Option.map_map,
        Option.map_map]
      rfl
    · rw [beq_iff_eq] at hq hb
      rw [lengthen_cons hlf, restOfString?_cons hq hb, ih, Option.map_map, Option.map_map]
      congr 1
      funext w
      exact (lengthen_cons hlf w).symm

end Rests

/-! ## Pieces -/

/-- The piece with a carriage return in front of every line feed. -/
def Piece.lengthen (s : Piece) : Piece := ⟨s.form, Ivy.lengthen s.bytes⟩

section Pieces

variable {b : UInt8} {l : List UInt8}

/-- Only a line feed becomes another first character. -/
theorem take_width_lengthen (ht : Utf8.IsText (b :: l)) (hb : b ≠ lineFeed) :
    (b :: lengthen l).take (Utf8.width b) = lengthen ((b :: l).take (Utf8.width b)) := by
  obtain ⟨c, rest, hc, -, hw⟩ := ht.cons
  have hne : c ≠ '\n' := by
    rintro rfl
    exact hb (List.cons.inj hc).1
  have hchar : lineFeed ∉ String.utf8EncodeChar c :=
    Utf8.not_mem_encodeChar (by decide) (by decide) hne
  rw [← lengthen_cons hb, hw, hc, lengthen_append, lengthen_of_not_mem hchar, List.take_left,
    List.take_left, lengthen_of_not_mem hchar]

theorem stringPiece_lengthen (l : List UInt8) :
    stringPiece (lengthen l) = (stringPiece l).lengthen := by
  unfold stringPiece
  rw [restOfString?_lengthen]
  cases restOfString? l with
  | none => rfl
  | some w => rfl

/-- A piece that is no line end goes on over the same bytes, lengthened. -/
theorem pieceFrom_lengthen (ht : Utf8.IsText (b :: l)) (hb : b ≠ lineFeed)
    (h : carriageReturn ∉ b :: l) : pieceFrom b (lengthen l) = (pieceFrom b l).lengthen := by
  have same {w : List UInt8} (hw : lineFeed ∉ w) : lengthen (b :: w) = b :: w := by
    rw [lengthen_cons hb, lengthen_of_not_mem hw]
  have run {q : UInt8 → Bool} (hq : q lineFeed = false) : lineFeed ∉ l.takeWhile q :=
    fun hmem => mem_takeWhile_ne hq l _ hmem rfl
  have hfits := Lead.fits_of b
  cases hlead : Lead.of b <;> rw [hlead] at hfits <;> simp only [pieceFrom, hlead, Piece.lengthen]
  case zero | other => rw [take_width_lengthen ht hb]
  case blank => rw [takeWhile_lengthen (by decide) (by decide), same (run (by decide))]
  case lineFeed => exact absurd hfits hb
  case carriageReturn => exact absurd (hfits ▸ List.mem_cons_self) h
  case single kind => rw [same List.not_mem_nil]
  case pair second joined alone =>
    have hsecond : second ≠ carriageReturn ∧ second ≠ lineFeed :=
      (by decide : ∀ x ∈ pairs, x.2.1 ≠ carriageReturn ∧ x.2.1 ≠ lineFeed) _ hfits
    simp only [head?_lengthen hsecond.1 hsecond.2]
    split
    · rw [same (by simpa using hsecond.2.symm)]
    · rw [same List.not_mem_nil]
  case slash =>
    simp only [head?_lengthen (show slash ≠ carriageReturn by decide) (by decide)]
    split
    · next hhead =>
      obtain ⟨l', rfl⟩ := List.head?_eq_some_iff.1 hhead
      have hline : carriageReturn ∉ l' := fun hmem =>
        h (List.mem_cons_of_mem _ (List.mem_cons_of_mem _ hmem))
      have hrest : lineFeed ∉ slash :: restOfLine l' := by
        rw [List.mem_cons, not_or]
        exact ⟨by decide, not_mem_restOfLine l'⟩
      rw [lengthen_cons (by decide), List.tail_cons, List.tail_cons, restOfLine_lengthen hline,
        same hrest]
    · rw [same List.not_mem_nil]
  case quotationMark => rw [stringPiece_lengthen, lengthen_cons hb, Piece.lengthen]
  case digit =>
    have hrest : lineFeed ∉ restOfNumber l := fun hmem => mem_restOfNumber_ne l _ hmem rfl
    rw [restOfNumber_lengthen, same hrest]
  case letter => rw [takeWhile_lengthen (by decide) (by decide), same (run (by decide))]

/-- A line end becomes the longer one, and any other first piece goes on. -/
theorem firstPiece_lengthen (ht : Utf8.IsText l) (h : carriageReturn ∉ l) :
    firstPiece (lengthen l) = (firstPiece l).lengthen := by
  cases l using lineFeed_induction with
  | nil => rfl
  | lineFeed l => rfl
  | other b l hb =>
    rw [lengthen_cons hb]
    exact pieceFrom_lengthen ht hb h

theorem pieces_lengthen (ht : Utf8.IsText l) (h : carriageReturn ∉ l) :
    pieces (lengthen l) = (pieces l).map Piece.lengthen := by
  fun_induction pieces l with
  | case1 => exact pieces_nil
  | case2 b l ih =>
    have hstarts := starts_pieceFrom b l
    have hfirst := firstPiece_lengthen ht h
    have hdrop := drop_lengthen hstarts.isPrefix
    obtain ⟨c, r, hc⟩ := List.exists_cons_of_ne_nil (lengthen_ne_nil b l)
    rw [hc] at hfirst hdrop ⊢
    rw [firstPiece, firstPiece] at hfirst
    rw [pieces_cons, hfirst, Piece.lengthen, hdrop, List.map_cons,
      ih (hstarts.isText_drop ht) (fun hmem => h (List.mem_of_mem_drop hmem))]
    rfl

end Pieces

/-! ## Lines -/

section Lines

variable {l w : List UInt8}

theorem lengthen_line (hw : lineFeed ∉ w) (l : List UInt8) :
    lengthen (w ++ lineFeed :: l) = (w ++ [carriageReturn]) ++ lineFeed :: lengthen l := by
  rw [lengthen_append, lengthen_of_not_mem hw, lengthen_lineFeed, List.append_assoc]
  rfl

theorem not_mem_concat (hw : lineFeed ∉ w) : lineFeed ∉ w ++ [carriageReturn] := by
  rw [List.mem_append, not_or]
  exact ⟨hw, by decide⟩

theorem shownLine_lengthen (h : carriageReturn ∉ l) : shownLine (lengthen l) = shownLine l := by
  by_cases hmem : lineFeed ∈ l
  · obtain ⟨w, r, rfl, hw⟩ := List.eq_append_cons_of_mem hmem
    have hlast : w.getLast? ≠ some carriageReturn := fun hlast =>
      h (List.mem_append_left _ (List.mem_of_getLast? hlast))
    rw [lengthen_line hw, shownLine, shownLine, firstLine_append (not_mem_concat hw),
      firstLine_append hw, List.getLast?_concat, if_pos rfl, if_neg hlast, List.dropLast_concat]
  · rw [lengthen_of_not_mem hmem]

/-- Every line is shown as before. -/
theorem map_shownLine_lengthen (h : carriageReturn ∉ l) (n : Nat) :
    (behindLines? n (lengthen l)).map shownLine = (behindLines? n l).map shownLine := by
  induction n generalizing l with
  | zero => exact congrArg some (shownLine_lengthen h)
  | succ n ih =>
    by_cases hmem : lineFeed ∈ l
    · obtain ⟨w, r, rfl, hw⟩ := List.eq_append_cons_of_mem hmem
      rw [lengthen_line hw, behindLines?_append (not_mem_concat hw), behindLines?_append hw]
      exact ih fun hcr => h (List.mem_append_right _ (List.mem_cons_of_mem _ hcr))
    · rw [lengthen_of_not_mem hmem]

end Lines

end Ivy
