/-!
# ASCII bytes

The bytes that mean something to the lexer, and the classes that it sorts bytes into.  All of them
are ASCII, so in UTF-8 none of them is part of another character.
-/

namespace Ivy

/-- The line feed, which ends a line. -/
def lineFeed : UInt8 := 0x0A

/-- The carriage return, which may stand before the line feed. -/
def carriageReturn : UInt8 := 0x0D

/-- The quotation mark, which opens and closes a string. -/
def quotationMark : UInt8 := 0x22

/-- The backslash, which escapes a character of a string. -/
def backslash : UInt8 := 0x5C

/-- The slash.  Two of them start a comment. -/
def slash : UInt8 := 0x2F

/-- The full stop, which separates a fraction. -/
def fullStop : UInt8 := 0x2E

/-- Whether `b` is a space or a tab. -/
def isBlank (b : UInt8) : Bool := b == 0x20 || b == 0x09

/-- Whether `b` is a decimal digit. -/
def isDigit (b : UInt8) : Bool := 0x30 ≤ b && b ≤ 0x39

/-- Whether `b` is a Latin letter or an underscore. -/
def isLetter (b : UInt8) : Bool :=
  0x61 ≤ b && b ≤ 0x7A || 0x41 ≤ b && b ≤ 0x5A || b == 0x5F

/-- Whether `b` can go on a word: a letter, an underscore or a digit. -/
def isWordByte (b : UInt8) : Bool := isLetter b || isDigit b

/-- Whether `b` interrupts the text of a string: a quotation mark, a backslash or a line feed. -/
def isStringMark (b : UInt8) : Bool := b == quotationMark || b == backslash || b == lineFeed

end Ivy
