import Ivy.Proofs.Rests

/-!
# Escaped quotation marks

What stands in a string behind the bytes `v` is escaped if `v` ends with an odd number of
backslashes (`IsEscaped v`).  A string stays open exactly if all quotation marks behind the opening
one are escaped (`restOfString?_eq_none_iff`), and else it is closed by the first that is not
(`isEscaped_of_restOfString?`, `not_isEscaped_of_restOfString?`).
-/

namespace Ivy

/-- The number of backslashes at the end of `v`. -/
def backslashRun (v : List UInt8) : Nat := (v.reverse.takeWhile (· == backslash)).length

/-- Whether the byte behind `v` is escaped, in a string that starts with `v`. -/
def IsEscaped (v : List UInt8) : Prop := backslashRun v % 2 = 1

instance (v : List UInt8) : Decidable (IsEscaped v) :=
  inferInstanceAs (Decidable (backslashRun v % 2 = 1))

section Runs

variable {b : UInt8} {v : List UInt8}

theorem backslashRun_le (v : List UInt8) : backslashRun v ≤ v.length := by
  rw [← List.length_reverse]
  exact (List.takeWhile_prefix _).length_le

/-- A byte in front counts only if all bytes behind it do. -/
theorem backslashRun_cons (b : UInt8) (v : List UInt8) : backslashRun (b :: v) =
    if backslashRun v = v.length then v.length + [b].count backslash else backslashRun v := by
  rw [backslashRun, List.reverse_cons, List.takeWhile_append, List.length_reverse]
  show (if backslashRun v = v.length then v.reverse ++ [b].takeWhile (· == backslash) else _).length
    = _
  split
  · rw [List.length_append, List.length_reverse]
    by_cases hb : b = backslash <;> simp [hb]
  · rfl

theorem isEscaped_cons (hb : b ≠ backslash) : IsEscaped (b :: v) ↔ IsEscaped v := by
  have hcount : [b].count backslash = 0 := List.count_eq_zero.2 (by simpa using hb.symm)
  rw [IsEscaped, IsEscaped, backslashRun_cons, hcount]
  split <;> omega

/-- A backslash and the byte behind it, be that a backslash too, do not count. -/
theorem isEscaped_escape (c : UInt8) (v : List UInt8) :
    IsEscaped (backslash :: c :: v) ↔ IsEscaped v := by
  have hle := backslashRun_le v
  have hone : [backslash].count backslash = 1 := List.count_singleton_self
  have hcount : [c].count backslash ≤ 1 := List.count_le_length
  rw [IsEscaped, IsEscaped, backslashRun_cons, backslashRun_cons c, List.length_cons, hone]
  split <;> split at * <;> omega

end Runs

/-- To say something of what stands in front of every `x` is to say it of the first byte and of all
behind it. -/
theorem forall_eq_append_cons {x b : UInt8} {l : List UInt8} {P : List UInt8 → Prop} :
    (∀ v r, b :: l = v ++ x :: r → P v) ↔
      (b = x → P []) ∧ ∀ v r, l = v ++ x :: r → P (b :: v) := by
  constructor
  · intro h
    exact ⟨fun hb => h [] l (hb ▸ rfl), fun v r hl => h (b :: v) r (congrArg (b :: ·) hl)⟩
  · rintro ⟨hhead, htail⟩ v r hl
    cases v with
    | nil => exact hhead (List.cons.inj hl).1
    | cons c v =>
      obtain ⟨hb, hl⟩ := List.cons.inj hl
      exact hb ▸ htail v r hl

/-- A string is not closed if all quotation marks behind the opening one are escaped. -/
theorem restOfString?_eq_none_iff {l : List UInt8} : restOfString? l = none ↔
    ∀ v r, l = v ++ quotationMark :: r → IsEscaped v := by
  fun_induction restOfString? l with
  | case1 => simp
  | case2 b l hb =>
    rw [forall_eq_append_cons]
    refine iff_of_false (Option.some_ne_none _) fun h => ?_
    exact absurd (h.1 (eq_of_beq hb)) (by decide)
  | case3 b hq hb =>
    rw [forall_eq_append_cons]
    simp [beq_iff_eq.not.1 hq]
  | case4 b hq hb c l ih =>
    obtain rfl := eq_of_beq hb
    rw [Option.map_eq_none_iff, ih, forall_eq_append_cons, forall_eq_append_cons]
    have hone : IsEscaped [backslash] := by decide
    simp only [isEscaped_escape, hone, implies_true, true_and]
    exact ⟨fun h => ⟨fun hquote => absurd hquote (by decide), h⟩, fun h => h.2⟩
  | case5 b l hq hb ih =>
    rw [beq_iff_eq] at hq hb
    rw [Option.map_eq_none_iff, ih, forall_eq_append_cons]
    simp only [isEscaped_cons hb, hq, false_implies, true_and]

section Closed

variable {l v : List UInt8}

/-- Quotation marks in front of the one that closes a string are escaped. -/
theorem isEscaped_of_restOfString? (h : restOfString? l = some (v ++ [quotationMark]))
    {u r : List UInt8} (hu : v = u ++ quotationMark :: r) : IsEscaped u := by
  apply Decidable.byContradiction
  intro hplain
  have hself := restOfString?_self h
  -- If not, the string would be closed earlier, and what comes later would not count.
  have hclosed : restOfString? (u ++ [quotationMark]) ≠ none := by
    rw [Ne, restOfString?_eq_none_iff]
    exact fun hall => hplain (hall u [] rfl)
  obtain ⟨w, hw⟩ := Option.ne_none_iff_exists'.1 hclosed
  have hlong := restOfString?_append_right hw (r ++ [quotationMark])
  have hle := (restOfString?_isPrefix hw).length_le
  have hsplit : v ++ [quotationMark] = u ++ [quotationMark] ++ (r ++ [quotationMark]) := by
    rw [hu, List.append_assoc, List.append_assoc]
    rfl
  rw [hsplit, hlong] at hself
  rw [Option.some.inj hself, ← List.append_assoc, List.length_append] at hle
  exact absurd hle (by simp)

/-- The quotation mark that closes a string is not escaped. -/
theorem not_isEscaped_of_restOfString? (h : restOfString? l = some (v ++ [quotationMark])) :
    ¬ IsEscaped v := by
  intro hescaped
  have hclosed := Option.ne_none_iff_exists'.2 ⟨_, restOfString?_self h⟩
  rw [Ne, restOfString?_eq_none_iff] at hclosed
  apply hclosed
  intro u r hu
  rcases List.eq_nil_or_concat r with rfl | ⟨r, b, rfl⟩
  · exact (List.append_inj_left' hu rfl).symm ▸ hescaped
  · rw [List.concat_eq_append, ← List.cons_append, ← List.append_assoc] at hu
    exact isEscaped_of_restOfString? h (List.append_inj_left' hu rfl)

end Closed

end Ivy
