/-!
# Sinks

A sink takes bytes and may have room for only so many.  A write that does not fit fills the sink
and fails; a sink without a bound takes everything.
-/

namespace Ivy

/-- Why a write failed. -/
inductive WriteError
  /-- The sink took no more bytes. -/
  | exhausted
  /-- The device of the sink is full. -/
  | deviceFull
deriving DecidableEq

/-- The wording of a failed write. -/
def WriteError.message : WriteError → String
  | exhausted => "failed to write whole buffer"
  | deviceFull => "No space left on device (os error 28)"

/-- A place where text is written. -/
structure Sink where
  /-- The bytes taken so far. -/
  written : ByteArray
  /-- The number of bytes that it takes in all, none if there is no bound. -/
  capacity : Option Nat
  /-- How a write fails that does not fit. -/
  refusal : WriteError

namespace Sink

/-- A sink that takes everything. -/
def unbounded : Sink := ⟨.empty, none, .exhausted⟩

/-- A sink that takes `n` bytes in all. -/
def bounded (n : Nat) : Sink := ⟨.empty, some n, .exhausted⟩

/-- A sink on a full device. -/
def full : Sink := ⟨.empty, some 0, .deviceFull⟩

/-- The sink with `bytes` added. -/
def append (s : Sink) (bytes : ByteArray) : Sink := { s with written := s.written ++ bytes }

/-- Writes a text, and tells if that failed. -/
def write (s : Sink) (text : String) : Sink × Option WriteError :=
  let bytes := text.toByteArray
  match s.capacity with
  | none => (s.append bytes, none)
  | some n =>
    let room := n - s.written.size
    if bytes.size ≤ room then (s.append bytes, none)
    else (s.append (bytes.extract 0 room), some s.refusal)

/-- Writes texts one after the other until one fails. -/
def writeAll (s : Sink) : List String → Sink × Option WriteError
  | [] => (s, none)
  | text :: texts =>
    match s.write text with
    | (s, some e) => (s, some e)
    | (s, none) => s.writeAll texts

end Sink

end Ivy
