import Mathlib.Data.List.TakeWhile

/-!
# Readers

What a list was put together from can be told from the list if each part tells where it ends.
`cutAt?` reads up to a separator, which the part in front of it must not hold (`cutAt?_append`), and
`readAll` reads item after item as long as there are any (`readAll_flatMap`).
-/

namespace Ivy

variable {α β : Type}

/-! ## Cutting at a separator -/

section Cut

variable [BEq α] [LawfulBEq α] {c : α} {w w' : List α}

theorem ne_of_not_mem (h : c ∉ w) : ∀ d ∈ w, (d != c) = true := by
  intro d hd
  rw [bne_iff_ne]
  rintro rfl
  exact h hd

/-- A list is cut at the first `c`. -/
theorem takeWhile_ne_append (h : c ∉ w) (r : List α) : (w ++ c :: r).takeWhile (· != c) = w := by
  rw [List.takeWhile_append_of_pos (ne_of_not_mem h), List.takeWhile_cons_of_neg (by simp),
    List.append_nil]

theorem dropWhile_ne_append (h : c ∉ w) (r : List α) :
    (w ++ c :: r).dropWhile (· != c) = c :: r := by
  rw [List.dropWhile_append_of_pos (ne_of_not_mem h), List.dropWhile_cons_of_neg (by simp)]

/-- What stands in front of the first `c` and what stands behind it, if there is one. -/
def cutAt? (c : α) (l : List α) : Option (List α × List α) :=
  match l.dropWhile (· != c) with
  | [] => none
  | _ :: r => some (l.takeWhile (· != c), r)

theorem cutAt?_append (h : c ∉ w) (r : List α) : cutAt? c (w ++ c :: r) = some (w, r) := by
  rw [cutAt?, dropWhile_ne_append h, takeWhile_ne_append h]

theorem append_cons_inj_of_not_mem (h : c ∉ w) (h' : c ∉ w') {r r' : List α}
    (heq : w ++ c :: r = w' ++ c :: r') : w = w' ∧ r = r' := by
  have hcut := cutAt?_append h r
  rw [heq, cutAt?_append h', Option.some.injEq, Prod.mk.injEq] at hcut
  exact ⟨hcut.1.symm, hcut.2.symm⟩

end Cut

/-! ## Reading item after item -/

/-- Reads items off a list as long as there are any, and gives what is left behind them. -/
def readAll (read? : List α → Option (β × List α)) (l : List α) : List β × List α :=
  match read? l with
  | none => ([], l)
  | some (b, r) =>
    if r.length < l.length then
      let (bs, rest) := readAll read? r
      (b :: bs, rest)
    else ([], l)
termination_by l.length

section ReadAll

variable {read? : List α → Option (β × List α)} {write : β → List α} {l r rest : List α} {b : β}

theorem readAll_of_none (h : read? l = none) : readAll read? l = ([], l) := by
  rw [readAll, h]

theorem readAll_of_some (h : read? l = some (b, r)) (hlt : r.length < l.length) :
    readAll read? l = (b :: (readAll read? r).1, (readAll read? r).2) := by
  rw [readAll, h]
  exact if_pos hlt

/-- If each item is read as it was written, then so are all of them. -/
theorem readAll_flatMap (hread : ∀ b r, read? (write b ++ r) = some (b, r))
    (hne : ∀ b, write b ≠ []) (hrest : read? rest = none) (bs : List β) :
    readAll read? (bs.flatMap write ++ rest) = (bs, rest) := by
  induction bs with
  | nil => exact readAll_of_none hrest
  | cons b bs ih =>
    have hlt {r : List α} : r.length < (write b ++ r).length := by
      rw [List.length_append]
      exact Nat.lt_add_of_pos_left (List.length_pos_iff.2 (hne b))
    rw [List.flatMap_cons, List.append_assoc, readAll_of_some (hread b _) hlt, ih]

end ReadAll

end Ivy
