import Ivy.Text.Quoted
import Ivy.Token.Basic

/-!
# Diagnosis

A token of the kind `invalid` stands for text that forms no token.  Its first character tells why:
`Cause.ofLexeme` reads the cause off the text, and `Token.error?` puts it together with the place of
the token.
-/

namespace Ivy

/-- Why text forms no token. -/
inductive Cause
  /-- No quotation mark closes the string. -/
  | unterminatedString
  /-- No token starts with the character. -/
  | unexpectedCharacter (c : Char)
  /-- No line feed follows the carriage return. -/
  | bareCarriageReturn
  /-- There is a zero byte in the text. -/
  | interiorNull
deriving DecidableEq

namespace Cause

/-- The cause that the text of an invalid token tells. -/
def ofLexeme (lexeme : String) : Cause :=
  match lexeme.toList.head? with
  | none => unexpectedCharacter '\uFFFD'
  | some c =>
    if c = '"' then unterminatedString
    else if c = '\r' then bareCarriageReturn
    else if c = '\x00' then interiorNull
    else unexpectedCharacter c

/-- The wording of a cause. -/
def message : Cause → String
  | unterminatedString => "unterminated string literal"
  | unexpectedCharacter c => "unexpected character '" ++ Quoted.encodeChar Quoted.isHidden c ++ "'"
  | bareCarriageReturn => "carriage return not followed by a newline"
  | interiorNull => "unexpected null byte"

end Cause

/-- Text of a source that forms no token. -/
structure LexicalError where
  cause : Cause
  /-- The offset of the first byte. -/
  start : Nat
  /-- The offset behind the last byte. -/
  stop : Nat
  /-- The number of the line that the first byte is on. -/
  line : Nat
deriving DecidableEq

/-- The wording of an error. -/
def LexicalError.message (e : LexicalError) : String := s!"line {e.line}: {e.cause.message}"

/-- The error that a token of the source stands for. -/
def Token.error? (src : Source) (t : Token) : Option LexicalError :=
  if t.kind.isError then some ⟨Cause.ofLexeme (src.lexeme t), t.start, t.stop, t.line⟩ else none

/-- The errors that tokens of the source stand for. -/
def Source.errors (src : Source) (tokens : List Token) : List LexicalError :=
  tokens.filterMap (Token.error? src)

theorem Token.error?_isSome_iff {src : Source} {t : Token} :
    (t.error? src).isSome ↔ t.kind = .invalid := by
  unfold Token.error?
  split <;> simp_all [Kind.isError]

end Ivy
