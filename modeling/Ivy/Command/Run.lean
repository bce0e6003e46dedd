import Ivy.Command.Options
import Ivy.Log.Filter
import Ivy.Report.Basic

/-!
# The command

`ivyc` scans a script, or standard input, and reports on it.  What it does depends on nothing but
its arguments and its `Environment`: what the paths lead to, standard input, the filter of the log
and the room that standard output has.  `Environment.run` gives the exit code and what is written.
-/

namespace Ivy

/-- How the command is used. -/
def usage : String :=
  "Usage: ivyc [options] [script]\n" ++
  "\n" ++
  "Scans the script (or standard input when no script is given) and reports\n" ++
  "lexical errors.\n" ++
  "\n" ++
  "Options:\n" ++
  "  -t, --tokens          Print every token with its lexeme\n" ++
  "  --discard-comments    Skip comments instead of emitting them as tokens\n" ++
  "  -h, --help            Show this help message\n" ++
  "\n" ++
  "Set RUST_LOG (e.g. RUST_LOG=ivy_lexer=debug) to enable scanner logging.\n"

/-- What the command finds when it runs. -/
structure Environment where
  /-- The bytes of the file to which a path leads. -/
  read : String → Except ReadError ByteArray
  /-- The bytes of standard input. -/
  standardInput : Except ReadError ByteArray := .ok .empty
  /-- What becomes of the events that the log is told, none if there is no log. -/
  logFilter : Option LogFilter := none
  /-- Where standard output goes. -/
  standardOutput : Sink := .unbounded

/-- What the command leaves behind. -/
structure Outcome where
  exitCode : Nat
  output : ByteArray
  errorOutput : ByteArray

/-- What follows the wording of a failure. -/
def Failure.advice : Failure → String
  | usage _ => "\n" ++ Ivy.usage
  | script .. | standardInput _ => ""

/-- What the command leaves behind when it fails. -/
def Failure.outcome (f : Failure) : Outcome :=
  ⟨f.exitCode, .empty, ("error: " ++ f.message ++ "\n" ++ f.advice).toByteArray⟩

/-- The text that bytes spell. -/
def decodeText (bytes : ByteArray) : Except ReadError String :=
  match String.fromUTF8? bytes with
  | none => .error .notUtf8
  | some text => .ok text

/-- The exit code when the source has errors or the report cannot be written. -/
def reportFailed : Nat := 1

/-- The exit code when the help cannot be written. -/
def helpFailed : Nat := 101

namespace Environment

/-- The text of the script, or of standard input. -/
def load (env : Environment) : (script : Option String) → Except Failure String
  | some path => (env.read path >>= decodeText).mapError (.script path)
  | none => (env.standardInput >>= decodeText).mapError .standardInput

/-- The lines for events that the log lets through. -/
def logLines (env : Environment) (events : List Event) : String :=
  match env.logFilter with
  | none => ""
  | some filter => filter.lines events

/-- Shows how the command is used. -/
def showHelp (env : Environment) : Outcome :=
  match env.standardOutput.write usage with
  | (out, none) => ⟨0, out.written, .empty⟩
  | (out, some _) => ⟨helpFailed, out.written, .empty⟩

/-- Reports on a source. -/
def reportOn (env : Environment) (o : Options) (text : String) : Except Fault Outcome := do
  let r ← report text o.comments o.printTokens env.standardOutput .unbounded
  let log := env.logLines (.sourceLoaded o.script text.utf8ByteSize :: r.log)
  let errorOutput := log.toByteArray ++ r.err.written
  match r.result with
  | .ok true => return ⟨0, r.out.written, errorOutput⟩
  | .ok false => return ⟨reportFailed, r.out.written, errorOutput⟩
  | .error e =>
    return ⟨reportFailed, r.out.written, errorOutput ++ s!"error: {e.message}\n".toByteArray⟩

/-- What the command does for its arguments. -/
def obey (env : Environment) (arguments : List String) : Except Fault Outcome :=
  match Options.ofArguments arguments with
  | .error e => .ok e.toFailure.outcome
  | .ok o =>
    if o.help then .ok env.showHelp
    else
      match env.load o.script with
      | .error f => .ok f.outcome
      | .ok text => env.reportOn o text

/-- The complaints about the filter of the log. -/
def logComplaints (env : Environment) : String :=
  match env.logFilter with
  | none => ""
  | some filter => filter.complaints

/-- Runs the command.  Complaints about the filter of the log come before everything else. -/
def run (env : Environment) (arguments : List String) : Except Fault Outcome := do
  let o ← env.obey arguments
  return { o with errorOutput := env.logComplaints.toByteArray ++ o.errorOutput }

end Environment

end Ivy
