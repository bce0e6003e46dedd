import Ivy.Text.Ascii
import Ivy.Token.Kind

/-!
# First bytes

What the lexer looks for at a position depends on the byte there.  `Lead.of` sorts the bytes into
blanks and line ends, operators and punctuation, the first bytes of comments, strings, numbers and
words, and those that start nothing.
-/

namespace Ivy

/-- What the first byte of a stretch of source announces. -/
inductive Lead
  /-- The end of the source, or a zero in its text. -/
  | zero
  /-- A run of spaces and tabs. -/
  | blank
  /-- The end of a line. -/
  | lineFeed
  /-- The end of a line, if a line feed follows. -/
  | carriageReturn
  /-- An operator of this byte alone. -/
  | single (kind : Kind)
  /-- An operator of two bytes if `second` follows, otherwise one of this byte alone. -/
  | pair (second : UInt8) (joined alone : Kind)
  /-- A comment or a division sign. -/
  | slash
  /-- A string. -/
  | quotationMark
  /-- A number. -/
  | digit
  /-- A word. -/
  | letter
  /-- Nothing. -/
  | other
deriving DecidableEq

/-- The operators and punctuation that no longer operator starts with. -/
def singles : List (UInt8 × Kind) :=
  [(0x28, .parenLeft), (0x29, .parenRight), (0x7B, .braceLeft), (0x7D, .braceRight),
    (0x5B, .bracketLeft), (0x5D, .bracketRight), (0x2E, .dot), (0x2A, .star), (0x3B, .semicolon)]

/-- The operators that may go on: the first byte, the byte that goes on, and the kinds with and
without it. -/
def pairs : List (UInt8 × UInt8 × Kind × Kind) :=
  [(0x3C, 0x3D, .lesserEquals, .angleLeft), (0x3E, 0x3D, .greaterEquals, .angleRight),
    (0x2B, 0x3D, .plusEquals, .plus), (0x2D, 0x3D, .minusEquals, .minus),
    (0x21, 0x3D, .bangEquals, .bang), (0x3D, 0x3D, .equalsEquals, .equals),
    (0x3A, 0x3A, .colonColon, .colon)]

/-- What the byte `b` announces. -/
def Lead.of (b : UInt8) : Lead :=
  if isLetter b then .letter
  else if isBlank b then .blank
  else if isDigit b then .digit
  else if b == Ivy.lineFeed then .lineFeed
  else if b == Ivy.carriageReturn then .carriageReturn
  else if b == Ivy.quotationMark then .quotationMark
  else if b == Ivy.slash then .slash
  else if b == 0 then .zero
  else match singles.find? (·.1 == b) with
    | some (_, kind) => .single kind
    | none => match pairs.find? (·.1 == b) with
      | some (_, second, joined, alone) => .pair second joined alone
      | none => .other

theorem Lead.isBlank_of_eq {b : UInt8} (h : Lead.of b = .blank) : isBlank b := by
  unfold Lead.of at h
  split at h
  · cases h
  · split at h
    · assumption
    · grind

theorem Lead.isDigit_of_eq {b : UInt8} (h : Lead.of b = .digit) : isDigit b := by
  unfold Lead.of at h
  split at h
  · cases h
  · split at h
    · cases h
    · split at h
      · assumption
      · grind

end Ivy
