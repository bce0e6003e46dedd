import Ivy.Source.Position

/-!
# How far the moves go

For each move of a position, where it stands when the move succeeds.
-/

namespace Ivy.Position

theorem advance_eq_ok {p q : Position} {n : Nat} (h : p.advance n = .ok q) :
    q = p.moveTo (p.offset + n) ∧ p.offset + n ≤ maxOffset := by
  simp only [advance, bind_eq_ok_iff, pure_eq_ok_iff, addOffset_eq_ok_iff] at h
  obtain ⟨m, ⟨rfl, hm⟩, rfl⟩ := h
  exact ⟨rfl, hm⟩

theorem byte_eq_ok {p : Position} {b : UInt8} (h : p.byte = .ok b) :
    p.offset < p.source.buffer.size ∧ p.source.byteAt p.offset = b :=
  Source.read_eq_ok_iff.1 h

theorem advanceChar_eq_ok {p q : Position} (h : p.advanceChar = .ok q) :
    p.offset < p.source.length ∧
      q = p.moveTo (min (p.offset + Utf8.width (p.source.byteAt p.offset)) p.source.length) := by
  unfold advanceChar at h
  split at h
  · cases h
  · next he =>
    simp only [bind_eq_ok_iff, pure_eq_ok_iff, addOffset_eq_ok_iff] at h
    obtain ⟨b, hb, m, ⟨rfl, -⟩, rfl⟩ := h
    obtain ⟨-, rfl⟩ := byte_eq_ok hb
    exact ⟨by simpa [atEnd] using he, rfl⟩

theorem endOfRun_eq_ok {src : Source} {q : UInt8 → Bool} {i count j : Nat}
    (h : endOfRun src q i count = .ok j) :
    i ≤ j ∧ j < i + count ∧ ¬ q (src.byteAt j) ∧ ∀ k, i ≤ k → k < j → q (src.byteAt k) := by
  induction count generalizing i with
  | zero => simp [endOfRun] at h
  | succ count ih =>
    unfold endOfRun at h
    split at h
    · next hq =>
      split at h
      · obtain ⟨h₁, h₂, h₃, h₄⟩ := ih h
        refine ⟨by omega, by omega, h₃, fun k hk hkj => ?_⟩
        obtain rfl | hlt := Nat.eq_or_lt_of_le hk
        · exact hq
        · exact h₄ k hlt hkj
      · cases h
    · next hq =>
      cases h
      exact ⟨Nat.le_refl _, by omega, hq, fun k _ _ => by omega⟩

theorem skipWhile_eq_ok {p r : Position} {q : UInt8 → Bool} (h : p.skipWhile q = .ok r) :
    r.source = p.source ∧ p.offset ≤ r.offset ∧ r.offset < p.source.buffer.size ∧
      ¬ q (p.source.byteAt r.offset) ∧
      ∀ k, p.offset ≤ k → k < r.offset → q (p.source.byteAt k) := by
  simp only [skipWhile, bind_eq_ok_iff, pure_eq_ok_iff] at h
  obtain ⟨j, hj, rfl⟩ := h
  obtain ⟨h₁, h₂, h₃, h₄⟩ := endOfRun_eq_ok hj
  exact ⟨rfl, h₁, by simp only [offset_moveTo]; omega, h₃, h₄⟩

theorem find?_eq_ok {p : Position} {q : UInt8 → Bool} {r : Option Nat} (h : p.find? q = .ok r) :
    p.offset ≤ p.source.length ∧ p.source.find? q p.offset = r := by
  unfold find? at h
  split at h
  · cases h
  · split at h
    · cases h
    · next hlt => exact ⟨Nat.le_of_not_lt hlt, Except.ok.inj h⟩

theorem skipToLineEnd_eq_ok {p r : Position} (h : p.skipToLineEnd = .ok r) :
    r.source = p.source ∧ p.offset ≤ r.offset ∧ r.offset ≤ p.source.length := by
  simp only [skipToLineEnd, bind_eq_ok_iff] at h
  obtain ⟨found, hf, h⟩ := h
  obtain ⟨hle, ho⟩ := find?_eq_ok hf
  cases found with
  | none => cases h; exact ⟨rfl, hle, Nat.le_refl _⟩
  | some i =>
    obtain ⟨h₁, h₂, -, -⟩ := Source.find?_eq_some ho
    simp only [Bool.and_eq_true, decide_eq_true_eq] at h
    split at h
    · next hc =>
      cases h
      exact ⟨rfl, Nat.le_sub_one_of_lt hc.1, Nat.le_trans (Nat.sub_le _ _) (Nat.le_of_lt h₂)⟩
    · cases h; exact ⟨rfl, h₁, Nat.le_of_lt h₂⟩

theorem skipToStringMark_eq_ok {p r : Position} {o : Option UInt8}
    (h : p.skipToStringMark = .ok (r, o)) :
    r.source = p.source ∧ p.offset ≤ r.offset ∧ r.offset ≤ p.source.length ∧
      (o = none → r.offset = p.source.length) ∧ (o ≠ none → r.offset < p.source.length) := by
  simp only [skipToStringMark, bind_eq_ok_iff] at h
  obtain ⟨found, hf, h⟩ := h
  obtain ⟨hle, ho⟩ := find?_eq_ok hf
  cases found with
  | none => cases h; exact ⟨rfl, hle, Nat.le_refl _, fun _ => rfl, fun hn => absurd rfl hn⟩
  | some i =>
    obtain ⟨h₁, h₂, -, -⟩ := Source.find?_eq_some ho
    cases h
    exact ⟨rfl, h₁, Nat.le_of_lt h₂, nofun, fun _ => h₂⟩

end Ivy.Position
