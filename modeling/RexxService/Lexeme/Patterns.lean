import RexxService.Text.Lowercase
import RexxService.Token

/-!
# How lexemes are written

The words with a meaning of their own, and the shapes of symbols, comments, strings, numbers and operators.  Each
reader takes characters off the front of a text, and loses none of them.
-/

/-!
## Keywords and built-in functions

The words with a meaning of their own.  They are listed in lowercase, and a word is looked up without
regard to the case of the letters `A` to `Z`.  A word in both lists is a keyword.
-/

namespace RexxService.Vocabulary

open RexxService.Text

def keywords : List String :=
  ["address", "arg", "by", "call", "do", "drop", "else", "end", "exit", "expose", "for", "forever",
   "if", "interpret", "iterate", "leave", "nop", "numeric", "options", "parse", "procedure", "pull",
   "push", "queue", "return", "say", "select", "signal", "then", "to", "trace", "upper", "when",
   "while"]

def functions : List String :=
  ["abbrev", "abs", "address", "arg", "b2x", "bitand", "bitor", "bitxor", "c2d", "c2x", "center",
   "centre", "compare", "condition", "copies", "d2c", "d2x", "datatype", "date", "dbcs", "delstr",
   "delword", "digits", "errortext", "externals", "find", "form", "format", "fuzz", "getmsg", "index",
   "insert", "justify", "lastpos", "left", "length", "linesize", "listdsi", "max", "min", "msg",
   "mvsvar", "outtrap", "overlay", "pos", "prompt", "queued", "random", "reverse", "right", "setlang",
   "sign", "sourceline", "space", "storage", "strip", "substr", "subword", "symbol", "syscpus",
   "sysdsn", "sysvar", "time", "trace", "translate", "trapmsg", "trunc", "userid", "value", "verify",
   "word", "wordindex", "wordlength", "wordpos", "words", "x2b", "x2c", "x2d", "xrange"]

def isKeyword (word : String) : Bool := keywords.contains (asciiLower word)

def isFunction (word : String) : Bool := functions.contains (asciiLower word)

def classify (word : String) : Token.Kind :=
  if isKeyword word then .keyword else if isFunction word then .function else .identifier

end RexxService.Vocabulary

/-!
## Characters of symbols

A symbol is a name, a keyword or a function.  It begins with a letter or one of the marks
`_ $ # @ §`, and goes on with those, numerals and dots.
-/

namespace RexxService.Lexeme

open RexxService.Text

/-- The characters besides letters that may begin a symbol. -/
def symbolMarks : List Char := ['_', '$', '#', '@', '§']

def startsSymbol (c : Char) : Bool := isLetter c || symbolMarks.contains c

/-- Whether a character may stand inside a symbol. -/
def continuesSymbol (c : Char) : Bool := startsSymbol c || isNumeral c || c == '.'

/-- What begins a symbol may also stand inside one. -/
theorem continuesSymbol_of_startsSymbol {c : Char} (h : startsSymbol c = true) :
    continuesSymbol c = true := by
  simp [continuesSymbol, h]

/-!
## Comments

A comment opens with `/*` and closes with `*/`, and comments nest.  `commentBody` reads on from inside
`depth` open comments to the end of the outermost one; without such an end there is no body.
-/

/-- Puts characters in front of the first of two parts. -/
def ahead (cs : List Char) (parts : List Char × List Char) : List Char × List Char :=
  (cs ++ parts.1, parts.2)

/-- What closes `depth` open comments, and the text after it. -/
def commentBody : Nat → List Char → Option (List Char × List Char)
  | 0, cs => some ([], cs)
  | _ + 1, [] => none
  | depth + 1, '/' :: '*' :: cs => (commentBody (depth + 2) cs).map (ahead ['/', '*'])
  | depth + 1, '*' :: '/' :: cs => (commentBody depth cs).map (ahead ['*', '/'])
  | depth + 1, c :: cs => (commentBody (depth + 1) cs).map (ahead [c])

/-- Reading a comment loses nothing. -/
theorem commentBody_append {depth : Nat} {cs body rest : List Char}
    (h : commentBody depth cs = some (body, rest)) : body ++ rest = cs := by
  fun_induction commentBody depth cs generalizing body with
  | case1 cs => simp_all
  | case2 => simp at h
  | case3 depth cs ih | case4 depth cs ih | case5 depth c cs _ _ ih =>
      obtain ⟨⟨b, r⟩, hb, he⟩ := Option.map_eq_some_iff.1 h
      simp only [ahead, Prod.mk.injEq] at he
      obtain ⟨rfl, rfl⟩ := he
      simp [ih hb]

/-!
## Quoted strings

A string opens and closes with the same quote, and a doubled quote inside it stands for one quote.
Strings never span lines: without a closing quote before the end of the line, the string stops
there and stays unclosed.
-/

/-- A string after its opening quote: its characters, the text after it, and whether it is closed. -/
structure Quoted where
  body : List Char
  rest : List Char
  closed : Bool
deriving DecidableEq, Repr

def Quoted.ahead (cs : List Char) (s : Quoted) : Quoted := { s with body := cs ++ s.body }

/-- Whether a character ends a line, and so a string. -/
def endsLine (c : Char) : Bool := c == '\r' || c == '\n'

def quotedBody (quote : Char) : List Char → Quoted
  | [] => ⟨[], [], false⟩
  | [c] =>
      if endsLine c then ⟨[], [c], false⟩
      else if c = quote then ⟨[c], [], true⟩
      else ⟨[c], [], false⟩
  | c :: d :: cs =>
      if endsLine c then ⟨[], c :: d :: cs, false⟩
      else if c = quote then
        if d = quote then (quotedBody quote cs).ahead [c, d] else ⟨[c], d :: cs, true⟩
      else (quotedBody quote (d :: cs)).ahead [c]

/-- Reading a string loses nothing. -/
theorem quotedBody_append (quote : Char) (cs : List Char) :
    (quotedBody quote cs).body ++ (quotedBody quote cs).rest = cs := by
  fun_induction quotedBody quote cs <;> simp_all [Quoted.ahead]

/-!
## Numbers

A number has an integer part, a fraction, an exponent and a tail of symbol characters, such as the
`rd` of `3rd`.  Each part may be missing, and each takes as many characters as it can:

* **`fractionPart`** is a dot and any digits after it;
* **`exponentPart`** is `e` or `E`, at most one sign and at least one digit;
* **`tailPart`** holds symbol characters other than dots.
-/

/-- The characters at the front of a text that belong to a class, and the text after them. -/
def run (p : Char → Bool) (cs : List Char) : List Char × List Char := (cs.takeWhile p, cs.dropWhile p)

/-- The dot of a number and the digits after it. -/
def fractionPart : List Char → List Char × List Char
  | [] => ([], [])
  | c :: cs => if c = '.' then (c :: cs.takeWhile isDigit, cs.dropWhile isDigit) else ([], c :: cs)

/-- The number of characters between the mark of an exponent and its digits. -/
def signLength : List Char → Nat
  | [] => 0
  | c :: _ => if c = '+' ∨ c = '-' then 1 else 0

/-- The exponent of a number: its mark, its sign and its digits. -/
def exponentPart : List Char → List Char × List Char
  | [] => ([], [])
  | c :: cs =>
      let sign := cs.take (signLength cs)
      let digits := cs.drop (signLength cs)
      if (c = 'e' ∨ c = 'E') ∧ digits.head?.any isDigit then
        (c :: (sign ++ digits.takeWhile isDigit), digits.dropWhile isDigit)
      else ([], c :: cs)

/-- Whether a character may follow a number as part of it. -/
def continuesNumber (c : Char) : Bool := c != '.' && continuesSymbol c

/-- The symbol characters at the end of a number. -/
def tailPart (cs : List Char) : List Char × List Char := run continuesNumber cs

def numberParts (cs : List Char) : List Char × List Char :=
  let whole := run isDigit cs
  let fraction := fractionPart whole.2
  let exponent := exponentPart fraction.2
  let tail := tailPart exponent.2
  (whole.1 ++ fraction.1 ++ exponent.1 ++ tail.1, tail.2)

theorem run_append (p : Char → Bool) (cs : List Char) : (run p cs).1 ++ (run p cs).2 = cs :=
  List.takeWhile_append_dropWhile

theorem fractionPart_append (cs : List Char) : (fractionPart cs).1 ++ (fractionPart cs).2 = cs := by
  fun_cases fractionPart cs <;> simp

theorem exponentPart_append (cs : List Char) : (exponentPart cs).1 ++ (exponentPart cs).2 = cs := by
  fun_cases exponentPart cs with
  | case1 => rfl
  | case2 c cs sign digits h =>
      simp [sign, digits, List.takeWhile_append_dropWhile, List.take_append_drop]
  | case3 => rfl

/-- Reading a number loses nothing. -/
theorem numberParts_append (cs : List Char) : (numberParts cs).1 ++ (numberParts cs).2 = cs := by
  simp only [numberParts, List.append_assoc, tailPart, run_append, exponentPart_append,
    fractionPart_append]

/-!
## Operators and punctuation

The spellings of the operators.  Longer spellings stand before shorter ones, so the first spelling
that begins a text is the longest one that does.
-/

open RexxService.Token

/-- The operators with their kinds, longest spellings first. -/
def operators : List (List Char × Kind) :=
  [(['^', '=', '='], .strictNotEqual), (['\\', '=', '='], .strictNotEqual),
   (['<', '<', '='], .strictLessEqual), (['>', '>', '='], .strictGreaterEqual),
   (['=', '='], .strictEqual), (['^', '='], .notEqual), (['\\', '='], .notEqual),
   (['<', '>'], .notEqual), (['>', '<'], .notEqual), (['<', '='], .lessEqual),
   (['>', '='], .greaterEqual), (['<', '<'], .strictLess), (['>', '>'], .strictGreater),
   (['/', '/'], .divideInteger), (['!', '!'], .concat), (['|', '|'], .concat),
   (['='], .equal), (['<'], .less), (['>'], .greater), (['+'], .plus), (['-'], .minus),
   (['*'], .multiply), (['/'], .divide), (['%'], .divideRemainder), (['&'], .logicalAnd),
   (['!'], .logicalOr), (['|'], .logicalOr), (['^'], .logicalNot), (['\\'], .logicalNot),
   ([','], .comma), ([':'], .colon), ([';'], .semicolon), (['('], .leftParenthesis),
   ([')'], .rightParenthesis), (['.'], .dot)]

def operator? (cs : List Char) : Option (List Char × Kind) :=
  operators.find? fun o => o.1.isPrefixOf cs

/-- An operator found at the front of a text is not empty and begins that text. -/
theorem operator?_eq_some {cs spelling : List Char} {kind : Kind}
    (h : operator? cs = some (spelling, kind)) : spelling ≠ [] ∧ spelling <+: cs := by
  have hmem := List.mem_of_find?_eq_some h
  have hfront := List.find?_some h
  have hne : ∀ o ∈ operators, o.1 ≠ [] := by decide
  exact ⟨hne _ hmem, List.isPrefixOf_iff_prefix.1 hfront⟩

end RexxService.Lexeme
