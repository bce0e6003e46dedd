import Ivy.Source.Search
import Ivy.Text.Ascii

/-!
# Lines

Lines are numbered from 1 and end at a line feed or at the end of the text.  `Source.line?` gives
the text of a line as it is shown: without its line feed, and without a carriage return that is
its last byte.
-/

namespace Ivy.Source

/-- The first line feed from `start` on, an offset of the text or its end. -/
def lineFeed? (src : Source) (start : Nat) : Except Fault (Option Nat) :=
  if src.length < start then .error (.searchBeyondBuffer start src.length)
  else .ok (src.find? (· == lineFeed) start)

/-- The offset at which the `n`-th line after the one at `start` begins. -/
def lineStart? (src : Source) (start : Nat) : (n : Nat) → Except Fault (Option Nat)
  | 0 => .ok (some start)
  | n + 1 => do
    match ← src.lineFeed? start with
    | none => return none
    | some i => lineStart? src (i + 1) n

/-- The offset at which the text of the line from `start` stops: before its line feed and before a
carriage return that comes last. -/
def lineStop (src : Source) (start : Nat) : Except Fault Nat := do
  let stop := (← src.lineFeed? start).getD src.length
  return if start < stop && src.byteAt (stop - 1) == carriageReturn then stop - 1 else stop

/-- The text of line `n`, none if there is no such line. -/
def line? (src : Source) : (n : Nat) → Except Fault (Option String)
  | 0 => .ok none
  | n + 1 => do
    match ← src.lineStart? 0 n with
    | none => return none
    | some start => return some (← src.slice start (← src.lineStop start))

end Ivy.Source
