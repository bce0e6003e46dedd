import Ivy.Log.Directive
import Ivy.Log.Event
import Ivy.Text.Quoted

/-!
# Log filters

What becomes of the events that a log is told is not the command's to say.  A `LogFilter` is all
that the command knows of it, and may be any.

The program runs with `LogFilter.ofString`.  Such a filter is written as a list of directives
between commas.  Of the directives whose targets start the target of an event, the one with the
longest decides up to which level the event is let through; if there is none, it is not.  What is
no directive is left out, with a complaint.
-/

namespace Ivy

/-- What becomes of the events that a log is told.  No event is told twice in a run, so that a line
may also tell when its event came. -/
structure LogFilter where
  /-- What is written in front of everything else, about what is wrong with the filter. -/
  complaints : String
  /-- Whether an event is let through. -/
  allows : Event → Bool
  /-- The line that tells an event. -/
  line : Event → String

/-- The lines that tell those events that the filter lets through. -/
def LogFilter.lines (f : LogFilter) (events : List Event) : String :=
  String.join ((events.filter f.allows).map f.line)

/-! ## Lists of directives -/

/-- The directives in a list of texts. -/
structure Directives where
  accepted : List Directive
  /-- The texts that are no directives, and why. -/
  rejected : List (String × DirectiveError)

namespace Directives

/-- The directives with one more text. -/
def add (ds : Directives) (text : String) : Directives :=
  match Directive.ofText? text.toList with
  | .ok none => ds
  | .ok (some d) => { ds with accepted := ds.accepted ++ [d] }
  | .error e => { ds with rejected := ds.rejected ++ [(text, e)] }

/-- The directives written as `s`. -/
def ofString (s : String) : Directives :=
  ((s.splitOn ",").filter (!·.isEmpty)).foldl add ⟨[], []⟩

/-- The lines that complain about what is no directive. -/
def complaints (ds : Directives) : String :=
  String.join (ds.rejected.map fun (text, e) => "ignoring `" ++ text ++ "`: " ++ e.message ++ "\n")

/-- The directive that decides about `target`.  Of directives for the same targets it is the
last. -/
def decisive? (ds : Directives) (target : String) : Option Directive :=
  (ds.accepted.filter (target.startsWith ·.target)).foldl
    (fun best d =>
      if best.all (·.target.utf8ByteSize ≤ d.target.utf8ByteSize) then some d else best) none

/-- Whether an event is let through. -/
def allows (ds : Directives) (e : Event) : Bool :=
  (ds.decisive? e.target).any (e.level.within ·.level)

end Directives

/-- The value of a field as it is logged. -/
def FieldValue.toLog : FieldValue → String
  | number n => toString n
  | script none => "None"
  | script (some path) => "Some(" ++ Quoted.encode Quoted.isHidden path ++ ")"

/-- The line that tells an event, without the time in front of it. -/
def Event.line (e : Event) : String :=
  let fields := e.fields.map fun (name, value) => " " ++ name ++ "=" ++ value.toLog
  e.level.name.toUpper ++ " " ++ e.target ++ ": " ++ e.message ++ String.join fields ++ "\n"

/-- The filter that directives make, with lines that do not tell the time. -/
def Directives.toFilter (ds : Directives) : LogFilter := ⟨ds.complaints, ds.allows, Event.line⟩

/-- The filter written as `s`. -/
def LogFilter.ofString (s : String) : LogFilter := (Directives.ofString s).toFilter

end Ivy
