/-!
# Log levels

How much a log is told.  A level is written as its name or its number.
-/

namespace Ivy

/-- How much a log is told, from nothing to everything. -/
inductive Level
  | off | error | warn | info | debug | trace
deriving DecidableEq

namespace Level

/-- All levels, in their order. -/
def all : List Level := [off, error, warn, info, debug, trace]

/-- The number of a level, its place in the order. -/
def number : Level → Nat
  | off => 0
  | error => 1
  | warn => 2
  | info => 3
  | debug => 4
  | trace => 5

/-- The name of a level. -/
def name : Level → String
  | off => "off"
  | error => "error"
  | warn => "warn"
  | info => "info"
  | debug => "debug"
  | trace => "trace"

/-- The level with the number `n`. -/
def ofNumber? (n : Nat) : Option Level := all.find? (·.number == n)

/-- The level with the name `s`, in letters of either case. -/
def ofName? (s : String) : Option Level := all.find? (·.name == s.toLower)

/-- The number that `digits` spell in the decimal system. -/
def decimal? (digits : List Char) : Option Nat :=
  if !digits.isEmpty && digits.all Char.isDigit then
    some (digits.foldl (fun n d => 10 * n + (d.toNat - '0'.toNat)) 0)
  else none

/-- The level written as `text`: a number, which may have a plus sign and leading zeros, or a
name. -/
def ofText? (text : List Char) : Option Level :=
  let digits := match text with
    | '+' :: digits => digits
    | digits => digits
  match decimal? digits with
  | some n => ofNumber? n
  | none => ofName? (String.ofList text)

/-- Whether a log of level `limit` is told what has the level `l`. -/
def within (l limit : Level) : Bool := l.number ≤ limit.number

end Level

end Ivy
