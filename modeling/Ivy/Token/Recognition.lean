import Ivy.Source.Position.Moves
import Ivy.Token.Lead

/-!
# Recognition

`recognise` reads one stretch of source: a gap between tokens, one token, text that forms no
token, or the end.  It tells the form of the stretch, the position behind it and the number of the
line there.
-/

namespace Ivy

/-- Why text forms no token. -/
inductive Defect
  /-- No quotation mark closes the string. -/
  | unterminatedString
  /-- No line feed follows the carriage return. -/
  | bareCarriageReturn
  /-- No token starts with the character. -/
  | unexpectedCharacter
deriving DecidableEq

/-- What a stretch of source is. -/
inductive Form
  /-- Blanks or a line end. -/
  | gap
  /-- A token. -/
  | token (kind : Kind)
  /-- Text that forms no token. -/
  | defect (cause : Defect)
  /-- The end of the source. -/
  | finish
deriving DecidableEq

/-- A stretch of source that has been recognised. -/
structure Stretch where
  form : Form
  /-- The position behind the stretch. -/
  next : Position
  /-- The number of the line at `next`. -/
  line : Nat

/-- The number of the next line. -/
def nextLine (line : Nat) : Except Fault Nat := addOffset line 1

/-- The number of the line behind the byte `b` of line `line`. -/
def lineAfter (b : UInt8) (line : Nat) : Except Fault Nat :=
  if b == lineFeed then nextLine line else .ok line

/-! ## Strings -/

/-- The position behind the character that a backslash before `p` escapes, and the line number
there.  There may be no such character. -/
def skipEscaped (p : Position) (line : Nat) : Except Fault (Position × Nat) := do
  if p.atEnd then return (p, line)
  let line ← lineAfter (← p.byte) line
  return (← p.advanceChar, line)

/-- Where a string goes on after the byte `mark` at `p`, a backslash or a line feed. -/
def skipMark (mark : UInt8) (p : Position) (line : Nat) : Except Fault (Position × Nat) := do
  let next ← p.advance 1
  if mark == backslash then skipEscaped next line
  else return (next, ← lineAfter mark line)

theorem skipEscaped_eq_ok {p q : Position} {line line' : Nat}
    (h : skipEscaped p line = .ok (q, line')) : q.source = p.source ∧ p.offset ≤ q.offset := by
  unfold skipEscaped at h
  split at h
  · cases h; exact ⟨rfl, Nat.le_refl _⟩
  · simp only [bind_eq_ok_iff, pure_eq_ok_iff, Prod.mk.injEq] at h
    obtain ⟨-, -, -, -, r, hr, rfl, rfl⟩ := h
    obtain ⟨hlt, rfl⟩ := Position.advanceChar_eq_ok hr
    exact ⟨rfl, by simp only [Position.offset_moveTo]; omega⟩

theorem skipMark_eq_ok {mark : UInt8} {p q : Position} {line line' : Nat}
    (h : skipMark mark p line = .ok (q, line')) :
    q.source = p.source ∧ p.offset < q.offset := by
  simp only [skipMark, bind_eq_ok_iff] at h
  obtain ⟨r, hr, h⟩ := h
  obtain ⟨rfl, -⟩ := Position.advance_eq_ok hr
  split at h
  · obtain ⟨h₁, h₂⟩ := skipEscaped_eq_ok h
    exact ⟨h₁, h₂⟩
  · simp only [bind_eq_ok_iff, pure_eq_ok_iff, Prod.mk.injEq] at h
    obtain ⟨-, -, rfl, -⟩ := h
    exact ⟨rfl, Nat.lt_succ_self _⟩

/-- The rest of a string from `p` on, behind the opening quotation mark. -/
def recogniseString (p : Position) (line : Nat) : Except Fault Stretch :=
  match _hm : p.skipToStringMark with
  | .error fault => .error fault
  | .ok (q, none) => .ok ⟨.defect .unterminatedString, q, line⟩
  | .ok (q, some mark) =>
    if mark == quotationMark then do return ⟨.token .literalString, ← q.advance 1, line⟩
    else match _hs : skipMark mark q line with
      | .error fault => .error fault
      | .ok (r, line) => recogniseString r line
termination_by p.source.length - p.offset
decreasing_by
  obtain ⟨h₁, h₂, -, -, h₃⟩ := Position.skipToStringMark_eq_ok _hm
  obtain ⟨h₄, h₅⟩ := skipMark_eq_ok _hs
  have := h₃ nofun
  rw [h₄, h₁]
  omega

/-! ## Other stretches -/

/-- A number: digits, and a full stop with more digits if there are any. -/
def recogniseNumber (p : Position) (line : Nat) : Except Fault Stretch := do
  let whole ← p.skipWhile isDigit
  if (← whole.byte) == fullStop then
    if isDigit (← whole.nextByte) then
      return ⟨.token .literalNumber, ← (← whole.advance 1).skipWhile isDigit, line⟩
  return ⟨.token .literalNumber, whole, line⟩

/-- The word at `p`, of which the first byte is known, and the position behind it. -/
def readWord (p : Position) : Except Fault (String × Position) := do
  let next ← (← p.advance 1).skipWhile isWordByte
  return (← p.source.slice p.offset next.offset, next)

/-- A word: a keyword or an identifier. -/
def recogniseWord (p : Position) (line : Nat) : Except Fault Stretch := do
  let (word, next) ← readWord p
  return ⟨.token ((Kind.ofKeyword? word).getD .identifier), next, line⟩

/-- A comment up to the end of its line, or a slash. -/
def recogniseSlash (p : Position) (line : Nat) : Except Fault Stretch := do
  let next ← p.advance 1
  if (← next.byte) == slash then
    return ⟨.token .commentLine, ← (← next.advance 1).skipToLineEnd, line⟩
  else return ⟨.token .slashForward, next, line⟩

/-- An operator that a second byte may lengthen. -/
def recognisePair (second : UInt8) (joined alone : Kind) (p : Position) (line : Nat) :
    Except Fault Stretch := do
  let next ← p.advance 1
  if (← next.byte) == second then return ⟨.token joined, ← next.advance 1, line⟩
  else return ⟨.token alone, next, line⟩

/-- A line end of two bytes, or a carriage return on its own. -/
def recogniseCarriageReturn (p : Position) (line : Nat) : Except Fault Stretch := do
  if (← p.nextByte) == lineFeed then return ⟨.gap, ← p.advance 2, ← nextLine line⟩
  else return ⟨.defect .bareCarriageReturn, ← p.advance 1, line⟩

/-- A character that starts no token. -/
def recogniseOther (p : Position) (line : Nat) : Except Fault Stretch := do
  return ⟨.defect .unexpectedCharacter, ← p.advanceChar, line⟩

/-- The stretch of source at `p`, which is on line `line`. -/
def recognise (p : Position) (line : Nat) : Except Fault Stretch := do
  match Lead.of (← p.byte) with
  | .zero => if p.atEnd then return ⟨.finish, p, line⟩ else recogniseOther p line
  | .blank => return ⟨.gap, ← p.skipBlanks, line⟩
  | .lineFeed => return ⟨.gap, ← p.advance 1, ← nextLine line⟩
  | .carriageReturn => recogniseCarriageReturn p line
  | .single kind => return ⟨.token kind, ← p.advance 1, line⟩
  | .pair second joined alone => recognisePair second joined alone p line
  | .slash => recogniseSlash p line
  | .quotationMark => recogniseString (← p.advance 1) line
  | .digit => recogniseNumber p line
  | .letter => recogniseWord p line
  | .other => recogniseOther p line

end Ivy
