import Ivy.Token.Recognition

/-!
# Progress

Apart from the end of the source, every stretch has at least one byte (`recognise_advances`), which
is why reading stretch after stretch comes to an end.
-/

namespace Ivy

/-- A stretch that starts at `p` goes on in the same source and has at least one byte. -/
def Stretch.Advances (s : Stretch) (p : Position) : Prop :=
  s.next.source = p.source ∧ p.offset < s.next.offset

theorem recogniseString_advances (p : Position) {q : Position} {line : Nat} {s : Stretch}
    (h : recogniseString q line = .ok s) (hs : q.source = p.source) (hlt : p.offset < q.offset) :
    s.Advances p ∧ s.form ≠ .finish := by
  fun_induction recogniseString q line with
  | case1 => cases h
  | case2 q line r hm =>
    obtain ⟨h₁, h₂, -⟩ := Position.skipToStringMark_eq_ok hm
    cases h
    exact ⟨⟨h₁.trans hs, Nat.lt_of_lt_of_le hlt h₂⟩, nofun⟩
  | case3 q line r mark hm =>
    obtain ⟨h₁, h₂, -⟩ := Position.skipToStringMark_eq_ok hm
    simp only [bind_eq_ok_iff, pure_eq_ok_iff] at h
    obtain ⟨t, ht, rfl⟩ := h
    obtain ⟨rfl, -⟩ := Position.advance_eq_ok ht
    exact ⟨⟨h₁.trans hs, by simp only [Position.offset_moveTo]; omega⟩, nofun⟩
  | case4 => cases h
  | case5 q line r mark hm _ t line' hmark ih =>
    obtain ⟨h₁, h₂, -⟩ := Position.skipToStringMark_eq_ok hm
    obtain ⟨h₃, h₄⟩ := skipMark_eq_ok hmark
    exact ih h (h₃.trans (h₁.trans hs)) (by omega)

theorem skipWhile_lt {p r : Position} {q : UInt8 → Bool} (h : p.skipWhile q = .ok r)
    (hq : q (p.source.byteAt p.offset)) : r.source = p.source ∧ p.offset < r.offset := by
  obtain ⟨h₁, h₂, -, h₃, -⟩ := Position.skipWhile_eq_ok h
  obtain heq | hlt := Nat.eq_or_lt_of_le h₂
  · rw [← heq] at h₃
    exact absurd hq h₃
  · exact ⟨h₁, hlt⟩

theorem recogniseNumber_advances {p : Position} {line : Nat} {s : Stretch}
    (h : recogniseNumber p line = .ok s) (hq : isDigit (p.source.byteAt p.offset)) :
    s.form ≠ .finish ∧ s.Advances p := by
  simp only [recogniseNumber, bind_eq_ok_iff] at h
  obtain ⟨whole, hw, b, -, h⟩ := h
  obtain ⟨h₁, h₂⟩ := skipWhile_lt hw hq
  split at h
  · simp only [bind_eq_ok_iff] at h
    obtain ⟨c, -, h⟩ := h
    split at h
    · simp only [bind_eq_ok_iff, pure_eq_ok_iff] at h
      obtain ⟨t, ht, r, hr, rfl⟩ := h
      obtain ⟨rfl, -⟩ := Position.advance_eq_ok ht
      obtain ⟨h₃, h₄, -⟩ := Position.skipWhile_eq_ok hr
      simp only [Position.source_moveTo, Position.offset_moveTo] at h₃ h₄
      exact ⟨nofun, h₃.trans h₁, by simp only; omega⟩
    · cases h; exact ⟨nofun, h₁, h₂⟩
  · cases h; exact ⟨nofun, h₁, h₂⟩

theorem recogniseWord_advances {p : Position} {line : Nat} {s : Stretch}
    (h : recogniseWord p line = .ok s) : s.form ≠ .finish ∧ s.Advances p := by
  simp only [recogniseWord, readWord, bind_eq_ok_iff, pure_eq_ok_iff] at h
  obtain ⟨-, ⟨t, ht, r, hr, word, -, rfl⟩, rfl⟩ := h
  obtain ⟨rfl, -⟩ := Position.advance_eq_ok ht
  obtain ⟨h₃, h₄, -⟩ := Position.skipWhile_eq_ok hr
  simp only [Position.source_moveTo, Position.offset_moveTo] at h₃ h₄
  exact ⟨nofun, h₃, h₄⟩

theorem recogniseSlash_advances {p : Position} {line : Nat} {s : Stretch}
    (h : recogniseSlash p line = .ok s) : s.form ≠ .finish ∧ s.Advances p := by
  simp only [recogniseSlash, bind_eq_ok_iff] at h
  obtain ⟨t, ht, b, -, h⟩ := h
  obtain ⟨rfl, -⟩ := Position.advance_eq_ok ht
  split at h
  · simp only [bind_eq_ok_iff, pure_eq_ok_iff] at h
    obtain ⟨u, hu, r, hr, rfl⟩ := h
    obtain ⟨rfl, -⟩ := Position.advance_eq_ok hu
    obtain ⟨h₃, h₄, -⟩ := Position.skipToLineEnd_eq_ok hr
    simp only [Position.source_moveTo, Position.offset_moveTo] at h₃ h₄
    exact ⟨nofun, h₃, by simp only; omega⟩
  · cases h; exact ⟨nofun, rfl, Nat.lt_succ_self _⟩

theorem recognisePair_advances {second : UInt8} {joined alone : Kind} {p : Position} {line : Nat}
    {s : Stretch} (h : recognisePair second joined alone p line = .ok s) :
    s.form ≠ .finish ∧ s.Advances p := by
  simp only [recognisePair, bind_eq_ok_iff] at h
  obtain ⟨t, ht, b, -, h⟩ := h
  obtain ⟨rfl, -⟩ := Position.advance_eq_ok ht
  split at h
  · simp only [bind_eq_ok_iff, pure_eq_ok_iff] at h
    obtain ⟨u, hu, rfl⟩ := h
    obtain ⟨rfl, -⟩ := Position.advance_eq_ok hu
    exact ⟨nofun, rfl, by simp only [Position.offset_moveTo]; omega⟩
  · cases h; exact ⟨nofun, rfl, Nat.lt_succ_self _⟩

theorem recogniseCarriageReturn_advances {p : Position} {line : Nat} {s : Stretch}
    (h : recogniseCarriageReturn p line = .ok s) : s.form ≠ .finish ∧ s.Advances p := by
  simp only [recogniseCarriageReturn, bind_eq_ok_iff] at h
  obtain ⟨b, -, h⟩ := h
  split at h <;> simp only [bind_eq_ok_iff, pure_eq_ok_iff] at h
  · obtain ⟨u, hu, -, -, rfl⟩ := h
    obtain ⟨rfl, -⟩ := Position.advance_eq_ok hu
    exact ⟨nofun, rfl, by simp only [Position.offset_moveTo]; omega⟩
  · obtain ⟨u, hu, rfl⟩ := h
    obtain ⟨rfl, -⟩ := Position.advance_eq_ok hu
    exact ⟨nofun, rfl, by simp only [Position.offset_moveTo]; omega⟩

theorem recogniseOther_advances {p : Position} {line : Nat} {s : Stretch}
    (h : recogniseOther p line = .ok s) : s.form ≠ .finish ∧ s.Advances p := by
  simp only [recogniseOther, bind_eq_ok_iff, pure_eq_ok_iff] at h
  obtain ⟨u, hu, rfl⟩ := h
  obtain ⟨hlt, rfl⟩ := Position.advanceChar_eq_ok hu
  have := Utf8.width_pos (p.source.byteAt p.offset)
  exact ⟨nofun, rfl, by simp only [Position.offset_moveTo]; omega⟩

theorem recognise_advances {p : Position} {line : Nat} {s : Stretch}
    (h : recognise p line = .ok s) :
    p.offset < p.source.buffer.size ∧
      (s = ⟨.finish, p, line⟩ ∨ s.form ≠ .finish ∧ s.Advances p) := by
  simp only [recognise, bind_eq_ok_iff] at h
  obtain ⟨b, hb, h⟩ := h
  obtain ⟨hlt, hb⟩ := Position.byte_eq_ok hb
  refine ⟨hlt, ?_⟩
  split at h
  · split at h
    · cases h; exact .inl rfl
    · exact .inr (recogniseOther_advances h)
  · next hl =>
    simp only [bind_eq_ok_iff, pure_eq_ok_iff] at h
    obtain ⟨u, hu, rfl⟩ := h
    exact .inr ⟨nofun, skipWhile_lt hu (hb ▸ Lead.isBlank_of_eq hl)⟩
  · simp only [bind_eq_ok_iff, pure_eq_ok_iff] at h
    obtain ⟨u, hu, -, -, rfl⟩ := h
    obtain ⟨rfl, -⟩ := Position.advance_eq_ok hu
    exact .inr ⟨nofun, rfl, by simp only [Position.offset_moveTo]; omega⟩
  · exact .inr (recogniseCarriageReturn_advances h)
  · simp only [bind_eq_ok_iff, pure_eq_ok_iff] at h
    obtain ⟨u, hu, rfl⟩ := h
    obtain ⟨rfl, -⟩ := Position.advance_eq_ok hu
    exact .inr ⟨nofun, rfl, by simp only [Position.offset_moveTo]; omega⟩
  · exact .inr (recognisePair_advances h)
  · exact .inr (recogniseSlash_advances h)
  · simp only [bind_eq_ok_iff] at h
    obtain ⟨u, hu, h⟩ := h
    obtain ⟨rfl, -⟩ := Position.advance_eq_ok hu
    exact .inr (recogniseString_advances p h rfl (Nat.lt_succ_self _)).symm
  · next hl => exact .inr (recogniseNumber_advances h (hb ▸ Lead.isDigit_of_eq hl))
  · exact .inr (recogniseWord_advances h)
  · exact .inr (recogniseOther_advances h)

end Ivy
