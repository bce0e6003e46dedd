/-!
# Kinds of tokens

The lexical categories of Ivy.  A kind has a name and a code; the codes are grouped in ranges, one
for each family of kinds, and two of the families, trivia and keywords, are told by their range.
Operators, punctuation and keywords are always spelled the same (`Kind.spelling?`).
-/

namespace Ivy

/-- The lexical category of a token. -/
inductive Kind
  | parenLeft | parenRight | braceLeft | braceRight | bracketLeft | bracketRight
  | angleLeft | angleRight | dot | semicolon | colon
  | star | plus | minus | bang | equals | slashForward
  | colonColon | plusEquals | minusEquals | bangEquals | equalsEquals | greaterEquals
  | lesserEquals
  | identifier | literalString | literalNumber
  | commentLine
  | keywordFn | keywordIf | keywordElse | keywordReturn | keywordFor | keywordVar
  | invalid
  | eof
deriving DecidableEq

namespace Kind

/-- All kinds, in the order of their codes. -/
def all : List Kind :=
  [parenLeft, parenRight, braceLeft, braceRight, bracketLeft, bracketRight,
    angleLeft, angleRight, dot, semicolon, colon,
    star, plus, minus, bang, equals, slashForward,
    colonColon, plusEquals, minusEquals, bangEquals, equalsEquals, greaterEquals, lesserEquals,
    identifier, literalString, literalNumber,
    commentLine,
    keywordFn, keywordIf, keywordElse, keywordReturn, keywordFor, keywordVar,
    invalid,
    eof]

theorem mem_all (k : Kind) : k ∈ all := by cases k <;> decide

/-- The code of a kind.  Punctuation starts at 0, operators of one character at 16, operators of
two at 32, identifiers and literals at 48, trivia at 64 and keywords at 80. -/
def code : Kind → Nat
  | parenLeft => 0
  | parenRight => 1
  | braceLeft => 2
  | braceRight => 3
  | bracketLeft => 4
  | bracketRight => 5
  | angleLeft => 6
  | angleRight => 7
  | dot => 8
  | semicolon => 9
  | colon => 10
  | star => 16
  | plus => 17
  | minus => 18
  | bang => 19
  | equals => 20
  | slashForward => 21
  | colonColon => 32
  | plusEquals => 33
  | minusEquals => 34
  | bangEquals => 35
  | equalsEquals => 36
  | greaterEquals => 37
  | lesserEquals => 38
  | identifier => 48
  | literalString => 49
  | literalNumber => 50
  | commentLine => 64
  | keywordFn => 80
  | keywordIf => 81
  | keywordElse => 82
  | keywordReturn => 83
  | keywordFor => 84
  | keywordVar => 85
  | invalid => 240
  | eof => 255

/-- The name under which a kind is listed. -/
def name : Kind → String
  | parenLeft => "paren_left"
  | parenRight => "paren_right"
  | braceLeft => "brace_left"
  | braceRight => "brace_right"
  | bracketLeft => "bracket_left"
  | bracketRight => "bracket_right"
  | angleLeft => "angle_left"
  | angleRight => "angle_right"
  | dot => "dot"
  | semicolon => "semicolon"
  | colon => "colon"
  | star => "star"
  | plus => "plus"
  | minus => "minus"
  | bang => "bang"
  | equals => "equals"
  | slashForward => "slash_forward"
  | colonColon => "colon_colon"
  | plusEquals => "plus_equals"
  | minusEquals => "minus_equals"
  | bangEquals => "bang_equals"
  | equalsEquals => "equals_equals"
  | greaterEquals => "greater_equals"
  | lesserEquals => "lesser_equals"
  | identifier => "identifier"
  | literalString => "literal_string"
  | literalNumber => "literal_number"
  | commentLine => "comment_line"
  | keywordFn => "keyword_fn"
  | keywordIf => "keyword_if"
  | keywordElse => "keyword_else"
  | keywordReturn => "keyword_return"
  | keywordFor => "keyword_for"
  | keywordVar => "keyword_var"
  | invalid => "invalid"
  | eof => "eof"

/-- The spelling of a kind whose tokens all have the same text. -/
def spelling? : Kind → Option String
  | parenLeft => some "("
  | parenRight => some ")"
  | braceLeft => some "\x7b"
  | braceRight => some "\x7d"
  | bracketLeft => some "["
  | bracketRight => some "]"
  | angleLeft => some "<"
  | angleRight => some ">"
  | dot => some "."
  | semicolon => some ";"
  | colon => some ":"
  | star => some "*"
  | plus => some "+"
  | minus => some "-"
  | bang => some "!"
  | equals => some "="
  | slashForward => some "/"
  | colonColon => some "::"
  | plusEquals => some "+="
  | minusEquals => some "-="
  | bangEquals => some "!="
  | equalsEquals => some "=="
  | greaterEquals => some ">="
  | lesserEquals => some "<="
  | keywordFn => some "fn"
  | keywordIf => some "if"
  | keywordElse => some "else"
  | keywordReturn => some "return"
  | keywordFor => some "for"
  | keywordVar => some "var"
  | identifier | literalString | literalNumber | commentLine | invalid | eof => none

/-- Whether the code lies in the range of keywords. -/
def isKeyword (k : Kind) : Bool := 80 ≤ k.code && k.code ≤ 95

/-- Whether the code lies in the range of trivia, which a parser skips. -/
def isTrivia (k : Kind) : Bool := 64 ≤ k.code && k.code ≤ 79

/-- Whether the kind marks text that forms no token. -/
def isError (k : Kind) : Bool := k == invalid

/-- The kind with code `n`. -/
def ofCode? (n : Nat) : Option Kind := all.find? (·.code == n)

/-- The kind with name `s`. -/
def ofName? (s : String) : Option Kind := all.find? (·.name == s)

/-- The number of bytes of the shortest keyword. -/
def minKeywordSize : Nat := 2

/-- The number of bytes of the longest keyword. -/
def maxKeywordSize : Nat := 6

/-- The keyword spelled `s`.  The words are looked up by their number of bytes. -/
def ofKeyword? (s : String) : Option Kind :=
  if s.utf8ByteSize < minKeywordSize ∨ maxKeywordSize < s.utf8ByteSize then none
  else
    match s.utf8ByteSize with
    | 2 =>
      match s with
      | "fn" => some keywordFn
      | "if" => some keywordIf
      | _ => none
    | 3 =>
      match s with
      | "for" => some keywordFor
      | "var" => some keywordVar
      | _ => none
    | 4 =>
      match s with
      | "else" => some keywordElse
      | _ => none
    | 6 =>
      match s with
      | "return" => some keywordReturn
      | _ => none
    | _ => none

theorem isTrivia_iff {k : Kind} : k.isTrivia ↔ k = commentLine := by cases k <;> decide

theorem isKeyword_iff {k : Kind} : k.isKeyword ↔
    k ∈ [keywordFn, keywordIf, keywordElse, keywordReturn, keywordFor, keywordVar] := by
  cases k <;> decide

theorem ofCode?_code (k : Kind) : ofCode? k.code = some k := by cases k <;> decide

theorem ofName?_name (k : Kind) : ofName? k.name = some k := by cases k <;> decide

/-- The words that are looked up are the spellings of the keywords. -/
theorem ofKeyword?_eq_some_iff {s : String} {k : Kind} :
    ofKeyword? s = some k ↔ k.isKeyword ∧ k.spelling? = some s := by
  constructor
  · fun_cases ofKeyword? s
    all_goals rintro ⟨⟩
    all_goals exact ⟨rfl, rfl⟩
  · rintro ⟨hk, hs⟩
    obtain rfl | rfl | rfl | rfl | rfl | rfl : _ := by simpa using isKeyword_iff.1 hk
    all_goals cases hs; decide

end Kind

end Ivy
