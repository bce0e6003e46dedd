import Ivy.Unicode.DefaultIgnorable
import Ivy.Unicode.GraphemeExtend
import Ivy.Unicode.Unmarked

/-!
# Quoted text

Text from a source is shown so that every character can be told: control characters by a letter
after a backslash, the quotation marks and the backslash with a backslash before them, and
characters that cannot be seen by their code point.  `Quoted.encode` quotes a text and
`Quoted.encodeChar` writes one character, as if between apostrophes.

Which characters cannot be seen is a parameter of `Quoted.escape`, so that its laws hold for every
version of Unicode.
-/

namespace Ivy.Quoted

/-- Whether `c` is one of the two halfwidth sound marks of Japanese.  They extend the character
before them but are letters with a cell of their own, the only such characters. -/
def isSoundMark (c : Char) : Bool := c == '\uFF9E' || c == '\uFF9F'

/-- Whether `c` cannot be seen on its own. -/
def isHidden (c : Char) : Bool :=
  Unicode.isUnmarked c || Unicode.isDefaultIgnorable c ||
    Unicode.isGraphemeExtend c && !isSoundMark c

/-- How the character `c` is written, where a backslash goes before the characters of `marks` and
those of `hidden` are given by their code points. -/
def escape (marks : List Char) (hidden : Char → Bool) (c : Char) : List Char :=
  if c = '\x00' then ['\\', '0']
  else if c = '\t' then ['\\', 't']
  else if c = '\r' then ['\\', 'r']
  else if c = '\n' then ['\\', 'n']
  else if marks.contains c then ['\\', c]
  else if hidden c then ['\\', 'u', '\x7b'] ++ Nat.toDigits 16 c.toNat ++ ['\x7d']
  else [c]

/-- The characters with a backslash before them inside quotation marks. -/
def textMarks : List Char := ['"', '\\']

/-- The characters with a backslash before them inside apostrophes. -/
def charMarks : List Char := ['"', '\\', '\x27']

/-- The text `s` in quotation marks. -/
def encode (hidden : Char → Bool) (s : String) : String :=
  String.ofList ('"' :: s.toList.flatMap (escape textMarks hidden) ++ ['"'])

/-- The character `c` as it is written between apostrophes. -/
def encodeChar (hidden : Char → Bool) (c : Char) : String :=
  String.ofList (escape charMarks hidden c)

end Ivy.Quoted
