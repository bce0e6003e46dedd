import Ivy.Command.Failure
import Ivy.Token.Stream

/-!
# Options

What the arguments of the command ask for.  `Options.ofArguments` reads them from left to right.
An argument that starts with a hyphen and has more than that byte is an option, every other one
names a script, and there may be one script.
-/

namespace Ivy

/-- What the arguments ask for. -/
structure Options where
  /-- The script to scan, none for standard input. -/
  script : Option String := none
  /-- Whether to list the tokens. -/
  printTokens : Bool := false
  /-- Whether to show how the command is used. -/
  help : Bool := false
  comments : CommentMode := .retain
deriving DecidableEq

/-- Why arguments make no sense. -/
inductive UsageError
  | unknownOption (argument : String)
  | unexpectedArgument (argument : String)
deriving DecidableEq

/-- The wording of arguments that make no sense. -/
def UsageError.message : UsageError → String
  | unknownOption argument => s!"unknown option '{argument}'"
  | unexpectedArgument argument => s!"unexpected argument '{argument}'"

/-- The failure of the command on arguments that make no sense. -/
def UsageError.toFailure (e : UsageError) : Failure := .usage e.message

/-- Whether an argument has the form of an option. -/
def isOption (argument : String) : Bool :=
  argument.toList.head? == some '-' && 1 < argument.utf8ByteSize

namespace Options

/-- The options with one more argument. -/
def add (o : Options) (argument : String) : Except UsageError Options :=
  if argument = "-h" ∨ argument = "--help" then .ok { o with help := true }
  else if argument = "-t" ∨ argument = "--tokens" then .ok { o with printTokens := true }
  else if argument = "--discard-comments" then .ok { o with comments := .discard }
  else if isOption argument then .error (.unknownOption argument)
  else if o.script.isSome then .error (.unexpectedArgument argument)
  else .ok { o with script := some argument }

/-- What a list of arguments asks for. -/
def ofArguments (arguments : List String) : Except UsageError Options :=
  arguments.foldlM add {}

end Options

end Ivy
