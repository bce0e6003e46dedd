import Ivy.Log.Level
import Ivy.Token.Recognition

/-!
# Log events

What the command and the lexer tell a log.  An event has a level, a target, the part of the program
that speaks, a message and named fields.  The log is warned of a text that is too long to be
addressed (`Source.warnings_eq_nil_iff`); all else is of the level `debug`.
-/

namespace Ivy

/-- Something worth telling a log. -/
inductive Event
  /-- The source has been read: from which script, if any, and its number of bytes. -/
  | sourceLoaded (script : Option String) (bytes : Nat)
  /-- Of the `length` bytes of the source only the first `kept` can be addressed. -/
  | sourceTruncated (length kept : Nat)
  /-- Text that forms no token was met at offset `start` on line `line`. -/
  | defectFound (cause : Defect) (start line : Nat)
  /-- The source has been scanned to its end, which is on line `lines`. -/
  | scanComplete (tokens invalid lines : Nat)
deriving DecidableEq

/-- The value of a field of an event. -/
inductive FieldValue
  | number (n : Nat)
  | script (path : Option String)
deriving DecidableEq

namespace Event

/-- How much a log has to be told for an event to be among it. -/
def level : Event → Level
  | sourceTruncated .. => .warn
  | sourceLoaded .. | defectFound .. | scanComplete .. => .debug

/-- The part of the program that speaks. -/
def target : Event → String
  | sourceLoaded .. => "ivyc"
  | sourceTruncated .. => "ivy_lexer::source_buffer"
  | defectFound .. | scanComplete .. => "ivy_lexer::scanner"

/-- What is said. -/
def message : Event → String
  | sourceLoaded .. => "source loaded"
  | sourceTruncated .. => "source exceeds u32 offsets; scanning a truncated prefix"
  | defectFound .unterminatedString .. => "unterminated string literal"
  | defectFound .bareCarriageReturn .. => "bare carriage return"
  | defectFound .unexpectedCharacter .. => "unexpected character"
  | scanComplete .. => "scan complete"

/-- The named values that go with the message, in the order in which they are written. -/
def fields : Event → List (String × FieldValue)
  | sourceLoaded script bytes => [("script", .script script), ("bytes", .number bytes)]
  | sourceTruncated length kept => [("len", .number length), ("kept", .number kept)]
  | defectFound _ start line => [("start", .number start), ("line", .number line)]
  | scanComplete tokens invalid lines =>
    [("tokens", .number tokens), ("invalid", .number invalid), ("lines", .number lines)]

end Event

/-- What the log is told about the text `s` when it is laid out. -/
def Source.warnings (s : String) : List Event :=
  if addressable s maxOffset < s.utf8ByteSize then
    [.sourceTruncated s.utf8ByteSize (addressable s maxOffset)]
  else []

/-- The log is warned of the texts that have more bytes than can be addressed. -/
theorem Source.warnings_eq_nil_iff {s : String} :
    warnings s = [] ↔ s.utf8ByteSize ≤ maxOffset := by
  rw [← Nat.not_lt, ← addressable_lt_size_iff, warnings]
  split
  · next h => exact iff_of_false (List.cons_ne_nil _ _) (not_not_intro h)
  · next h => exact iff_of_true rfl h

end Ivy
