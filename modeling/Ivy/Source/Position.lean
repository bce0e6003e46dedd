import Ivy.Source.Search
import Ivy.Text.Ascii

/-!
# Positions

A `Position` is a place in a source from which bytes are read.  It may stand anywhere, also behind
the text: in the padding it reads zeros, and behind the padding reading is a fault.

Moves give the new position.  `Position.advance` and `Position.advanceChar` move over a number of
bytes and over one character; `Position.skipWhile` moves over the bytes of a class, which should
not contain zero, so that the padding ends it; `Position.skipToLineEnd` and
`Position.skipToStringMark` search for the bytes that end a comment and interrupt a string.
-/

namespace Ivy

/-- A place in a source. -/
structure Position where
  source : Source
  /-- The number of bytes before the place. -/
  offset : Nat

/-- The position of the first byte. -/
def Source.start (src : Source) : Position := ⟨src, 0⟩

namespace Position

/-- The position at `offset` in the same source. -/
def moveTo (p : Position) (offset : Nat) : Position := { p with offset }

@[simp] theorem source_moveTo (p : Position) (i : Nat) : (p.moveTo i).source = p.source := rfl

@[simp] theorem offset_moveTo (p : Position) (i : Nat) : (p.moveTo i).offset = i := rfl

/-- Whether there is no text left. -/
def atEnd (p : Position) : Bool := p.source.length ≤ p.offset

/-- The byte at the position. -/
def byte (p : Position) : Except Fault UInt8 := p.source.read p.offset

/-- The byte after the one at the position. -/
def nextByte (p : Position) : Except Fault UInt8 := p.source.read (p.offset + 1)

/-- The position `n` bytes further on. -/
def advance (p : Position) (n : Nat) : Except Fault Position := do
  return p.moveTo (← addOffset p.offset n)

/-- The position after the character at `p`, at most the end of the text. -/
def advanceChar (p : Position) : Except Fault Position := do
  if p.atEnd then throw .noCharacter
  let next ← addOffset p.offset (Utf8.width (← p.byte))
  return p.moveTo (min next p.source.length)

/-- The first offset from `i` on whose byte fails `q`, with `count` bytes of the buffer left. -/
@[specialize]
def endOfRun (src : Source) (q : UInt8 → Bool) (i : Nat) : (count : Nat) → Except Fault Nat
  | 0 => .error (.byteBeyondBuffer src.buffer.size i)
  | count + 1 =>
    if q (src.byteAt i) then
      if i < maxOffset then endOfRun src q (i + 1) count else .error .overflow
    else .ok i

/-- The position of the first byte that fails `q`. -/
@[specialize]
def skipWhile (p : Position) (q : UInt8 → Bool) : Except Fault Position := do
  return p.moveTo (← endOfRun p.source q p.offset (p.source.buffer.size - p.offset))

/-- The position after the spaces and tabs. -/
def skipBlanks (p : Position) : Except Fault Position := p.skipWhile isBlank

/-- The first offset of the text from `p` on whose byte satisfies `q`. -/
@[specialize]
def find? (p : Position) (q : UInt8 → Bool) : Except Fault (Option Nat) :=
  if p.source.buffer.size < p.offset then
    .error (.searchBeyondBuffer p.offset p.source.buffer.size)
  else if p.source.length < p.offset then
    .error (.searchBeyondText p.offset p.source.length)
  else .ok (p.source.find? q p.offset)

/-- The position where the line of `p` ends: at its line feed, at a carriage return right before
that line feed unless `p` is already behind it, or at the end of the text. -/
def skipToLineEnd (p : Position) : Except Fault Position := do
  match ← p.find? (· == lineFeed) with
  | none => return p.moveTo p.source.length
  | some i =>
    if p.offset < i && p.source.byteAt (i - 1) == carriageReturn then
      return p.moveTo (i - 1)
    else return p.moveTo i

/-- The position of the next byte that interrupts a string, with that byte, or the end of the text
and no byte. -/
def skipToStringMark (p : Position) : Except Fault (Position × Option UInt8) := do
  match ← p.find? isStringMark with
  | none => return (p.moveTo p.source.length, none)
  | some i => return (p.moveTo i, some (p.source.byteAt i))

end Position

end Ivy
