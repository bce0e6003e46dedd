/-!
# Failures of the command

What keeps the command from reporting on a source: arguments that make no sense, a script that
cannot be read, or standard input that cannot be read.  Each has a wording and an exit code.
-/

namespace Ivy

/-- The kinds of failed reads that are worded on their own, and the rest. -/
inductive ReadErrorKind
  | notFound
  | permissionDenied
  | invalidData
  | other
deriving DecidableEq

/-- A failed read: its kind, and how the system words it. -/
structure ReadError where
  kind : ReadErrorKind
  text : String
deriving DecidableEq

/-- The bytes that were read are not UTF-8. -/
def ReadError.notUtf8 : ReadError := ⟨.invalidData, "stream did not contain valid UTF-8"⟩

/-- What keeps the command from reporting on a source. -/
inductive Failure
  /-- The arguments make no sense. -/
  | usage (text : String)
  /-- The script cannot be read. -/
  | script (path : String) (cause : ReadError)
  /-- Standard input cannot be read. -/
  | standardInput (cause : ReadError)
deriving DecidableEq

namespace Failure

/-- The wording of a failure. -/
def message : Failure → String
  | usage text => text
  | script path cause =>
    match cause.kind with
    | .notFound => s!"cannot find file '{path}'"
    | .permissionDenied => s!"permission denied reading '{path}'"
    | .invalidData => s!"'{path}' contains invalid UTF-8 data"
    | .other => s!"error reading '{path}': {cause.text}"
  | standardInput cause => s!"error reading standard input: {cause.text}"

/-- The exit code for a failure. -/
def exitCode : Failure → Nat
  | usage _ => 64
  | script .. | standardInput _ => 1

/-- The failed read behind a failure. -/
def cause? : Failure → Option ReadError
  | usage _ => none
  | script _ cause | standardInput cause => some cause

end Failure

end Ivy
