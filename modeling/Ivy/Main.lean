import Ivy.Command.FileTree
import Ivy.Command.Run

/-!
# The program

The entry point: looks up what the command needs, runs it and writes what it leaves behind.
-/

namespace Ivy

/-- The number and the wording that the system gives an error. -/
def systemError? : IO.Error → Option (Nat × String)
  | .alreadyExists _ code text | .invalidArgument _ code text | .permissionDenied _ code text
  | .resourceExhausted _ code text | .inappropriateType _ code text | .noSuchThing _ code text
  | .interrupted _ code text | .noFileOrDirectory _ code text | .otherError code text
  | .resourceBusy code text | .resourceVanished code text | .unsupportedOperation code text
  | .hardwareFault code text | .unsatisfiedConstraints code text | .illegalOperation code text
  | .protocolError code text | .timeExpired code text => some (code.toInt32.toInt.natAbs, text)
  | .unexpectedEof | .userError _ => none

/-- The wording of a system error. -/
def systemText (e : IO.Error) : String :=
  match systemError? e with
  | some (code, text) => s!"{text} (os error {code})"
  | none => toString e

/-- The failed read that a system error stands for. -/
def readErrorOf (e : IO.Error) : ReadError :=
  match systemError? e with
  | some (2, _) => .missing
  | some (13, _) => ⟨.permissionDenied, systemText e⟩
  | some (20, _) => .notDirectory
  | some (21, _) => .isDirectory
  | some (36, _) => .nameTooLong
  | _ => ⟨.other, systemText e⟩

/-- Reads bytes. -/
def tryRead (action : IO ByteArray) : IO (Except ReadError ByteArray) := do
  try return .ok (← action)
  catch e => return .error (readErrorOf e)

/-- What the command with these options finds when it runs. -/
def environmentFor (o : Options) : IO Environment := do
  let logFilter := (← IO.getEnv "RUST_LOG").map LogFilter.ofString
  if o.help then return { read := fun _ => .error .missing, logFilter }
  match o.script with
  | some path =>
    let content ← tryRead (IO.FS.readBinFile path)
    return { read := fun _ => content, logFilter }
  | none =>
    let standardInput ← tryRead do (← IO.getStdin).readBinToEnd
    return { read := fun _ => .error .missing, standardInput, logFilter }

/-- Writes what the command leaves behind, and gives its exit code. -/
def Outcome.deliver (o : Outcome) : IO UInt32 := do
  let err ← IO.getStderr
  try
    let out ← IO.getStdout
    out.write o.output
    out.flush
    err.write o.errorOutput
    return o.exitCode.toUInt32
  catch e =>
    err.write s!"error: {systemText e}\n".toByteArray
    return reportFailed.toUInt32

/-- Runs the command on its arguments. -/
def runProgram (arguments : List String) : IO UInt32 := do
  let options := match Options.ofArguments arguments with
    | .ok o => o
    | .error _ => { help := true }
  match (← environmentFor options).run arguments with
  | .ok outcome => outcome.deliver
  | .error fault =>
    (← IO.getStderr).write s!"error: {fault.message}\n".toByteArray
    return helpFailed.toUInt32

end Ivy

/-- The entry point of the program. -/
def main (arguments : List String) : IO UInt32 := Ivy.runProgram arguments
