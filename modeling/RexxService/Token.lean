import RexxService.Failure
import RexxService.Position

/-!
# Tokens and their faults

The lexical classes of source text, the tokens that belong to them, and what can be wrong with a token.
-/

/-!
## Kinds of tokens

The lexical classes of REXX source text.  `Kind.name` is the spelling under which a kind is reported,
and `ofName?` reads that spelling back.
-/

namespace RexxService.Token

/-- The lexical class of a token. -/
inductive Kind where
  /-- An empty mark at a position; no source text has this kind. -/
  | synthetic
  | comment
  /-- A comment that runs to the end of the text. -/
  | commentUnclosed
  | whitespace
  | comma
  | colon
  | semicolon
  | leftParenthesis
  | rightParenthesis
  | dot
  | plus
  | minus
  | multiply
  | divide
  | divideInteger
  | divideRemainder
  | equal
  | notEqual
  | less
  | lessEqual
  | greater
  | greaterEqual
  | strictEqual
  | strictNotEqual
  | strictLess
  | strictLessEqual
  | strictGreater
  | strictGreaterEqual
  | logicalAnd
  | logicalOr
  | logicalNot
  | concat
  | singleQuoted
  | singleQuotedUnclosed
  | doubleQuoted
  | doubleQuotedUnclosed
  | number
  | identifier
  | keyword
  | function
  /-- An illegal character or an end of comment without a comment. -/
  | invalid
deriving DecidableEq, Repr

namespace Kind

def isComment : Kind → Bool
  | comment | commentUnclosed => true
  | _ => false

def isQuoted : Kind → Bool
  | singleQuoted | singleQuotedUnclosed | doubleQuoted | doubleQuotedUnclosed => true
  | _ => false

/-- Whether nothing has been typed yet after a token of this kind, so that any name may follow. -/
def isOpening : Kind → Bool
  | whitespace | leftParenthesis => true
  | _ => false

/-- Whether the kind only separates other tokens. -/
def isTrivia : Kind → Bool
  | whitespace | comment | commentUnclosed => true
  | _ => false

/-- The spelling under which a kind is reported. -/
def name : Kind → String
  | synthetic => "SYNTHETIC"
  | comment => "COMMENT"
  | commentUnclosed => "COMMENT_UNCLOSED"
  | whitespace => "WHITESPACE"
  | comma => "COMMA"
  | colon => "COLON"
  | semicolon => "SEMICOLON"
  | leftParenthesis => "LEFT_PARENTHESIS"
  | rightParenthesis => "RIGHT_PARENTHESIS"
  | dot => "DOT"
  | plus => "PLUS"
  | minus => "MINUS"
  | multiply => "MULTI"
  | divide => "DIVIDE"
  | divideInteger => "DIVIDE_INTEGER"
  | divideRemainder => "DIVIDE_REMAINDER"
  | equal => "EQ"
  | notEqual => "NE"
  | less => "LT"
  | lessEqual => "LE"
  | greater => "GT"
  | greaterEqual => "GE"
  | strictEqual => "STRICT_EQ"
  | strictNotEqual => "STRICT_NE"
  | strictLess => "STRICT_LT"
  | strictLessEqual => "STRICT_LE"
  | strictGreater => "STRICT_GT"
  | strictGreaterEqual => "STRICT_GE"
  | logicalAnd => "AND"
  | logicalOr => "OR"
  | logicalNot => "NOT"
  | concat => "CONCAT"
  | singleQuoted => "SQUOTE_STRING"
  | singleQuotedUnclosed => "SQUOTE_STRING_UNCLOSED"
  | doubleQuoted => "DQUOTE_STRING"
  | doubleQuotedUnclosed => "DQUOTE_STRING_UNCLOSED"
  | number => "NUMBER"
  | identifier => "IDENTIFIER"
  | keyword => "KEYWORD"
  | function => "FUNCTION"
  | invalid => "INVALID"

def all : List Kind :=
  [synthetic, comment, commentUnclosed, whitespace, comma, colon, semicolon, leftParenthesis,
   rightParenthesis, dot, plus, minus, multiply, divide, divideInteger, divideRemainder, equal,
   notEqual, less, lessEqual, greater, greaterEqual, strictEqual, strictNotEqual, strictLess,
   strictLessEqual, strictGreater, strictGreaterEqual, logicalAnd, logicalOr, logicalNot, concat,
   singleQuoted, singleQuotedUnclosed, doubleQuoted, doubleQuotedUnclosed, number, identifier,
   keyword, function, invalid]

/-- The kind that is reported under a spelling. -/
def ofName? (s : String) : Option Kind := all.find? fun k => k.name == s

end Kind

end RexxService.Token

/-!
## Tokens

A `Token` is a piece of source text with its lexical class and its place: the line and column of its
first character, and the offsets of its two ends in sixteen-bit units from the start of the text.

* **`endPosition`** follows the line breaks inside the token's own text.  A carriage return before a
  line feed belongs to that one break; any other carriage return or line feed is a break by itself.
* **`contains`** asks whether a position lies in the token, read as if it had one line only.
-/

namespace RexxService

open RexxService.Text

/-- A classified piece of source text. -/
structure Token where
  kind : Token.Kind
  text : String
  line : Nat
  column : Nat
  offset : Nat
  endOffset : Nat
deriving DecidableEq, Repr

namespace Token

/-- The token of a text at a place; its end follows from the length of the text. -/
def ofText (kind : Kind) (text : String) (start : Position) (offset : Nat) :
    Except Overflow Token := do
  let endOffset ← Counter.add Counter.offsetLimit offset (units text.toList)
  return ⟨kind, text, start.line, start.column, offset, endOffset⟩

/-- The number of sixteen-bit units between the two ends. -/
def length (t : Token) : Except Overflow Nat := Counter.sub t.endOffset t.offset

/-- Whether the two ends coincide. -/
def isEmpty (t : Token) : Bool := t.endOffset == t.offset

def start (t : Token) : Position := ⟨t.line, t.column⟩

/-- Whether a character ends a line, given the character after it. -/
def breaksLine (c : Char) (next : Option Char) : Bool :=
  c == '\n' || (c == '\r' && next != some '\n')

/-- The position reached from `p` after a text. -/
def positionPast (p : Position) : List Char → Except Overflow Position
  | [] => .ok p
  | c :: cs =>
      if breaksLine c cs.head? then do
        let line ← Counter.add Counter.placeLimit p.line 1
        positionPast ⟨line, 0⟩ cs
      else if c = '\r' then positionPast p cs
      else do
        let column ← Counter.add Counter.placeLimit p.column (charUnits c)
        positionPast ⟨p.line, column⟩ cs

/-- The position just past the token. -/
def endPosition (t : Token) : Except Overflow Position := positionPast t.start t.text.toList

def span (t : Token) : Except Overflow Span := return ⟨t.start, ← t.endPosition⟩

/-- Whether a position lies in the token, read along its first line. -/
def contains (t : Token) (p : Position) : Except Overflow Bool :=
  if t.line = p.line ∧ t.column ≤ p.column then do
    let stop ← Counter.add Counter.offsetLimit t.column (← t.length)
    return decide (p.column < stop)
  else return false

/-- A text with its line breaks and tabs spelled out. -/
def escaped (s : String) : String :=
  String.join (s.toList.map fun c =>
    if c = '\n' then "\\n" else if c = '\r' then "\\r" else if c = '\t' then "\\t"
    else String.singleton c)

def render (t : Token) : String :=
  "Token(" ++ t.kind.name ++ ":(" ++ t.start.render ++ "):(" ++ toString t.offset ++ ":"
    ++ toString t.endOffset ++ "):\"" ++ escaped t.text ++ "\")"

end Token

/-!
## Faults

A fault is a recoverable problem in a source text, anchored at the token that shows it.  Scanning
finds the first four kinds, and the two others come from matching `do` with `end`.
-/

namespace Fault

/-- What is wrong with a token. -/
inductive Kind where
  | unmatchedEndComment
  | unclosedComment
  | unclosedString
  | illegalCharacter
  | unmatchedDo
  | unmatchedEnd
deriving DecidableEq, Repr

def Kind.message : Kind → String
  | unmatchedEndComment => "Unmatched end-of-comment punctuation"
  | unclosedComment => "Unclosed comment"
  | unclosedString => "Unclosed string"
  | illegalCharacter => "Illegal character"
  | unmatchedDo => "Unmatched do keyword"
  | unmatchedEnd => "Unmatched end keyword"

end Fault

structure Fault where
  kind : Fault.Kind
  token : Token
deriving DecidableEq, Repr

namespace Fault

def message (f : Fault) : String := f.kind.message

def span (f : Fault) : Except Overflow Span := f.token.span

def render (f : Fault) : Except Overflow String :=
  return f.message ++ " at " ++ (← f.span).render

end Fault

end RexxService
