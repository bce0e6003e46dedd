import Ivy.Source.Basic

/-!
# Searching

`Source.find?` looks for the first byte of a text, from an offset on, that satisfies a test.  It
does not look into the padding.
-/

namespace Ivy.Source

/-- The first offset among the `count` offsets from `i` whose byte satisfies `p`. -/
@[specialize]
def findWithin (src : Source) (p : UInt8 → Bool) (i : Nat) : (count : Nat) → Option Nat
  | 0 => none
  | count + 1 => if p (src.byteAt i) then some i else findWithin src p (i + 1) count

/-- The first offset of the text from `start` on whose byte satisfies `p`. -/
@[specialize]
def find? (src : Source) (p : UInt8 → Bool) (start : Nat) : Option Nat :=
  src.findWithin p start (src.length - start)

theorem findWithin_eq_some {src : Source} {p : UInt8 → Bool} {i count j : Nat}
    (h : src.findWithin p i count = some j) :
    i ≤ j ∧ j < i + count ∧ p (src.byteAt j) ∧ ∀ k, i ≤ k → k < j → ¬ p (src.byteAt k) := by
  induction count generalizing i with
  | zero => simp [findWithin] at h
  | succ count ih =>
    unfold findWithin at h
    split at h
    · next hp =>
      cases h
      exact ⟨Nat.le_refl _, by omega, hp, fun k _ _ => by omega⟩
    · next hp =>
      obtain ⟨h₁, h₂, h₃, h₄⟩ := ih h
      refine ⟨by omega, by omega, h₃, fun k hk hkj => ?_⟩
      obtain rfl | hlt := Nat.eq_or_lt_of_le hk
      · exact hp
      · exact h₄ k hlt hkj

theorem find?_eq_some {src : Source} {p : UInt8 → Bool} {start j : Nat}
    (h : src.find? p start = some j) :
    start ≤ j ∧ j < src.length ∧ p (src.byteAt j) ∧
      ∀ k, start ≤ k → k < j → ¬ p (src.byteAt k) := by
  obtain ⟨h₁, h₂, h₃, h₄⟩ := findWithin_eq_some h
  exact ⟨h₁, by omega, h₃, h₄⟩

end Ivy.Source
