import Ivy.Log.Level
import Ivy.Unicode.Alphanumeric
import Ivy.Unicode.WhiteSpace

/-!
# Directives

A directive tells up to which level a log hears the targets that start in a certain way.  It is
written in one of three forms: a level, for all targets; the start of a target, for every level;
or the start of a target, an equals sign and a level, where no level means every level.  Behind the
start of a target, brackets may restrict a directive to spans.  As there are no spans here, such a
directive is read and then has no effect.

White space around a directive is not skipped.  Behind it, it belongs to the last word; in front of
it, it belongs to a single word and keeps a level behind an equals sign from being read.
-/

namespace Ivy

/-- Up to which level a log hears the targets that start with `target`. -/
structure Directive where
  target : String
  level : Level
deriving DecidableEq

/-- Why a text is no directive. -/
inductive DirectiveError
  /-- The text has none of the forms of a directive. -/
  | malformed
  /-- What stands for the level is none. -/
  | unknownLevel
deriving DecidableEq

/-- The wording of an error. -/
def DirectiveError.message : DirectiveError → String
  | malformed => "invalid filter directive"
  | unknownLevel =>
    "error parsing level filter: expected one of \"off\", \"error\", \"warn\", \"info\", " ++
      "\"debug\", \"trace\", or a number 0-5"

namespace Directive

/-- Whether the start of a target can begin with `c`. -/
def startsTarget (c : Char) : Bool := ['-', ':', '_'].contains c || Unicode.isAlphanumeric c

/-- The level written as `text`, where no text means every level. -/
def levelOf (text : List Char) : Except DirectiveError Level :=
  if text.isEmpty then .ok .trace
  else
    match Level.ofText? text with
    | some level => .ok level
    | none => .error .unknownLevel

/-- The directive of a single word: a level for all targets, or else a target. -/
def ofWord (word : List Char) : Directive :=
  match Level.ofText? word with
  | some level => ⟨"", level⟩
  | none => ⟨String.ofList word, .trace⟩

/-- The text without the white space around it. -/
def trim (text : List Char) : List Char :=
  ((text.dropWhile Unicode.isWhiteSpace).reverse.dropWhile Unicode.isWhiteSpace).reverse

/-- The level that the rest of a directive behind its equals sign gives.  `text` is the whole text
of the directive. -/
def levelBehind (text rest : List Char) : Except DirectiveError Level :=
  if text.head?.any Unicode.isWhiteSpace then .error .unknownLevel
  else levelOf (rest ++ (text.reverse.takeWhile Unicode.isWhiteSpace).reverse)

/-- The directive written as `text`, none if it has no effect. -/
def ofText? (text : List Char) : Except DirectiveError (Option Directive) := do
  let body := trim text
  if !body.head?.any fun c => c == '[' || startsTarget c then throw .malformed
  let (target, rest) := body.span fun c => c != '=' && c != '['
  match rest with
  | [] => return some (ofWord text)
  | '=' :: rest => return some ⟨String.ofList target, ← levelBehind text rest⟩
  | _ :: span =>
    match span.dropWhile (· != ']') with
    | [_] => return none
    | _ :: '=' :: rest =>
      let _ ← levelBehind text rest
      return none
    | _ => throw .malformed

end Directive

end Ivy
