import Ivy.Source.Basic
import Ivy.Token.Kind

/-!
# Tokens

A token is a span of a source with a kind and the number of the line it starts on.  It holds no
text; `Source.lexeme` looks the text up.  `Token.ofSpan` builds a token from a span that it checks.
-/

namespace Ivy

/-- A lexical unit of a source. -/
structure Token where
  kind : Kind
  /-- The offset of the first byte. -/
  start : Nat
  /-- The offset behind the last byte. -/
  stop : Nat
  /-- The number of the line that the first byte is on. -/
  line : Nat
deriving DecidableEq

namespace Token

/-- The token of a kind on the span from `start` to `stop`. -/
def ofSpan (kind : Kind) (start stop line : Nat) : Except Fault Token :=
  if start ≤ stop then .ok ⟨kind, start, stop, line⟩ else .error .reversedSpan

/-- The number of bytes of a token. -/
def length (t : Token) : Except Fault Nat :=
  if t.start ≤ t.stop then .ok (t.stop - t.start) else .error .negativeLength

/-- Whether a token has no bytes. -/
def isEmpty (t : Token) : Bool := t.start == t.stop

/-- Whether a token marks the end of its source. -/
def isEof (t : Token) : Bool := t.kind == .eof

/-- The form in which a token is listed. -/
protected def toString (t : Token) : String :=
  s!"[{t.kind.name}] {t.line}:{t.start}-{t.stop}"

theorem ofSpan_eq_ok_iff {kind : Kind} {start stop line : Nat} {t : Token} :
    ofSpan kind start stop line = .ok t ↔ start ≤ stop ∧ ⟨kind, start, stop, line⟩ = t := by
  unfold ofSpan
  split <;> simp [*]

end Token

/-- The text of a token of this source. -/
def Source.lexeme (src : Source) (t : Token) : String := src.text t.start t.stop

end Ivy
