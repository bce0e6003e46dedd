import Ivy.Diagnosis
import Ivy.Report.Sink
import Ivy.Source.Line
import Ivy.Token.Stream

/-!
# Reports

A report on a source goes to two sinks.  The listing of the tokens, if it is asked for, goes to
`out`, then each error with its source line to `err`, and at last, if there are no errors, the
word that all is well to `out`.  The first write that fails ends the report.
-/

namespace Ivy.Report

/-- The line that lists the token `t`. -/
def listingLine (hidden : Char → Bool) (src : Source) (t : Token) : String :=
  t.toString ++ " " ++ Quoted.encode hidden (src.lexeme t) ++ "\n"

/-- The number `n` at the end of a column of five characters. -/
def lineNumber (n : Nat) : String :=
  let digits := toString n
  "".pushn ' ' (5 - digits.length) ++ digits

/-- The lines that tell the error `e`. -/
def errorLines (src : Source) (e : LexicalError) : Except Fault (List String) := do
  let headline := "error: " ++ e.message ++ "\n"
  match ← src.line? e.line with
  | none => return [headline]
  | some text => return [headline, lineNumber e.line ++ " | " ++ text ++ "\n"]

/-- The line that tells that there are no errors. -/
def doneLine : String := "Done!\n"

/-- The lines of a report. -/
structure Lines where
  /-- The listing of the tokens. -/
  listing : List String
  /-- The errors with their source lines. -/
  errors : List String
  /-- Whether there are no errors. -/
  clean : Bool

/-- The lines of the report on `src`, whose tokens are `tokens`. -/
def lines (src : Source) (tokens : List Token) (printTokens : Bool) : Except Fault Lines := do
  let errors := src.errors tokens
  let told ← errors.mapM (errorLines src)
  return {
    listing := if printTokens then tokens.map (listingLine Quoted.isHidden src) else []
    errors := told.flatten
    clean := errors.isEmpty }

/-- A report that has been written. -/
structure Written where
  out : Sink
  err : Sink
  /-- Whether there are no errors, if every write succeeded. -/
  result : Except WriteError Bool

/-- Writes the lines of a report. -/
def Lines.write (l : Lines) (out err : Sink) : Written :=
  match out.writeAll l.listing with
  | (out, some e) => ⟨out, err, .error e⟩
  | (out, none) =>
    match err.writeAll l.errors with
    | (err, some e) => ⟨out, err, .error e⟩
    | (err, none) =>
      if l.clean then
        match out.write doneLine with
        | (out, some e) => ⟨out, err, .error e⟩
        | (out, none) => ⟨out, err, .ok true⟩
      else ⟨out, err, .ok false⟩

end Ivy.Report

namespace Ivy

/-- A text that has been scanned and reported on. -/
structure Reported extends Report.Written where
  /-- What the log is told. -/
  log : List Event

/-- Scans a text and writes the report on it. -/
def report (text : String) (comments : CommentMode) (printTokens : Bool) (out err : Sink) :
    Except Fault Reported := do
  let src := Source.ofString text
  let scan ← (src.tokens comments).scan
  let lines ← Report.lines src scan.tokens printTokens
  return { lines.write out err with log := Source.warnings text ++ scan.log }

end Ivy
