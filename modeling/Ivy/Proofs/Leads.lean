import Ivy.Proofs.Utf8
import Ivy.Token.Lead

/-!
# What the first byte tells

`Lead.of b` sorts the byte `b`, and `Lead.Fits` says what a byte of each sort is.  Except for the
sort of the bytes that start nothing, a byte is of a sort exactly if it fits (`Lead.of_eq_iff`).
-/

namespace Ivy

/-! ## Classes of ASCII bytes -/

section Classes

variable {b : UInt8}

theorem lt_of_isBlank (h : isBlank b) : b < 0x80 := by
  have hall : ∀ b, isBlank b → b < 0x80 := forall_byte (by decide +kernel)
  exact hall b h

theorem lt_of_isWordByte (h : isWordByte b) : b < 0x80 := by
  have hall : ∀ b, isWordByte b → b < 0x80 := forall_byte (by decide +kernel)
  exact hall b h

theorem isWordByte_of_isLetter (h : isLetter b) : isWordByte b := by
  rw [isWordByte, h, Bool.true_or]

theorem isWordByte_of_isDigit (h : isDigit b) : isWordByte b := by
  rw [isWordByte, h, Bool.or_true]

end Classes

namespace Lead

/-! ## Leads -/

/-- What a byte that announces something is. -/
def Fits (b : UInt8) : Lead → Prop
  | .zero => b = 0
  | .blank => isBlank b
  | .lineFeed => b = Ivy.lineFeed
  | .carriageReturn => b = Ivy.carriageReturn
  | .single kind => (b, kind) ∈ singles
  | .pair second joined alone => (b, second, joined, alone) ∈ pairs
  | .slash => b = Ivy.slash
  | .quotationMark => b = Ivy.quotationMark
  | .digit => isDigit b
  | .letter => isLetter b
  | .other => True

theorem fits_of (b : UInt8) : Fits b (Lead.of b) := by
  unfold Lead.of
  split
  · assumption
  split
  · assumption
  split
  · assumption
  split
  · exact eq_of_beq ‹_›
  split
  · exact eq_of_beq ‹_›
  split
  · exact eq_of_beq ‹_›
  split
  · exact eq_of_beq ‹_›
  split
  · exact eq_of_beq ‹_›
  split
  · next b' kind h =>
    have hb : b' = b := by simpa using List.find?_some h
    exact hb ▸ List.mem_of_find?_eq_some h
  · split
    · next b' second joined alone h =>
      have hb : b' = b := by simpa using List.find?_some h
      exact hb ▸ List.mem_of_find?_eq_some h
    · trivial

theorem of_eq_iff {b : UInt8} {lead : Lead} (h : lead ≠ .other) :
    Lead.of b = lead ↔ Fits b lead := by
  constructor
  · rintro rfl
    exact fits_of b
  · intro hb
    have blank : ∀ b, isBlank b → Lead.of b = .blank := forall_byte (by decide +kernel)
    have digit : ∀ b, isDigit b → Lead.of b = .digit := forall_byte (by decide +kernel)
    have letter : ∀ b, isLetter b → Lead.of b = .letter := forall_byte (by decide +kernel)
    cases lead with
    | zero | lineFeed | carriageReturn | slash | quotationMark => exact hb ▸ by decide
    | blank => exact blank b hb
    | digit => exact digit b hb
    | letter => exact letter b hb
    | single kind =>
      exact (by decide : ∀ x ∈ singles, Lead.of x.1 = .single x.2) (b, kind) hb
    | pair second joined alone =>
      exact (by decide : ∀ x ∈ pairs, Lead.of x.1 = .pair x.2.1 x.2.2.1 x.2.2.2)
        (b, second, joined, alone) hb
    | other => exact absurd rfl h

theorem ne_lineFeed {b : UInt8} (h : Lead.of b ≠ .lineFeed) : b ≠ Ivy.lineFeed := by
  rintro rfl
  exact h (by decide)

/-- The byte that goes on an operator is neither a line feed nor a zero. -/
theorem second_ne {b second : UInt8} {joined alone : Kind}
    (h : Lead.of b = .pair second joined alone) : second ≠ Ivy.lineFeed ∧ second ≠ 0 := by
  have hmem := fits_of b
  rw [h] at hmem
  exact (by decide : ∀ x ∈ pairs, x.2.1 ≠ Ivy.lineFeed ∧ x.2.1 ≠ 0) _ hmem

end Lead

end Ivy
