import RexxService.Lexeme.Patterns
import RexxService.Text.Characters
import RexxService.Token

/-!
# Lexemes

A lexeme is the first token of a text before it has a place.  `scan` reads it off the front of a text
that is not empty: blanks, comments, strings, numbers, symbols and operators are tried in that order,
and a character that begins none of them is a lexeme by itself with a fault.

* **`scan_append`** — the lexeme and the rest make up the whole text;
* **`scan_text_ne_nil`** — a lexeme is never empty, so reading lexemes comes to an end.
-/

namespace RexxService

open RexxService.Text

/-- The first token of a text, the rest of the text, and what is wrong with the token, if anything. -/
structure Lexeme where
  kind : Token.Kind
  text : List Char
  rest : List Char
  fault : Option Fault.Kind
deriving DecidableEq, Repr

namespace Lexeme

/-- The comment that goes on with `cs` after its opening mark. -/
def comment (cs : List Char) : Lexeme :=
  match commentBody 1 cs with
  | some (body, rest) => ⟨.comment, '/' :: '*' :: body, rest, none⟩
  | none => ⟨.commentUnclosed, '/' :: '*' :: cs, [], some .unclosedComment⟩

/-- The lexeme of a string, with the kinds of a closed and of an unclosed string. -/
def ofQuoted (quote : Char) (closed unclosed : Token.Kind) (s : Quoted) : Lexeme where
  kind := if s.closed then closed else unclosed
  text := quote :: s.body
  rest := s.rest
  fault := if s.closed then none else some .unclosedString

/-- The string that goes on with `cs` after its opening quote. -/
def quoted (quote : Char) (closed unclosed : Token.Kind) (cs : List Char) : Lexeme :=
  ofQuoted quote closed unclosed (quotedBody quote cs)

def startsNumber (c : Char) (cs : List Char) : Bool :=
  isDigit c || (c == '.' && cs.head?.any isDigit)

def ofNumber (parts : List Char × List Char) : Lexeme := ⟨.number, parts.1, parts.2, none⟩

def number (cs : List Char) : Lexeme := ofNumber (numberParts cs)

def symbol (cs : List Char) : Lexeme :=
  let text := cs.takeWhile continuesSymbol
  ⟨Vocabulary.classify (String.ofList text), text, cs.dropWhile continuesSymbol, none⟩

theorem symbol_of_starts {c : Char} (h : startsSymbol c = true) (cs : List Char) :
    symbol (c :: cs) = ⟨Vocabulary.classify (String.ofList (c :: cs.takeWhile continuesSymbol)),
      c :: cs.takeWhile continuesSymbol, cs.dropWhile continuesSymbol, none⟩ := by
  have hc := continuesSymbol_of_startsSymbol h
  rw [symbol, List.takeWhile_cons_of_pos hc, List.dropWhile_cons_of_pos hc]

/-- The operator at the front of a text, or its first character as an illegal one. -/
def punctuation (c : Char) (cs : List Char) : Lexeme :=
  match operator? (c :: cs) with
  | some (spelling, kind) => ⟨kind, spelling, (c :: cs).drop spelling.length, none⟩
  | none => ⟨.invalid, [c], cs, some .illegalCharacter⟩

/-- The lexeme at the front of a text. -/
def scan (c : Char) (cs : List Char) : Lexeme :=
  if isBlank c then ⟨.whitespace, c :: cs.takeWhile isBlank, cs.dropWhile isBlank, none⟩
  else if c = '/' ∧ cs.head? = some '*' then comment cs.tail
  else if c = '*' ∧ cs.head? = some '/' then
    ⟨.invalid, ['*', '/'], cs.tail, some .unmatchedEndComment⟩
  else if c = '\'' then quoted c .singleQuoted .singleQuotedUnclosed cs
  else if c = '"' then quoted c .doubleQuoted .doubleQuotedUnclosed cs
  else if startsNumber c cs then number (c :: cs)
  else if startsSymbol c then symbol (c :: cs)
  else punctuation c cs

/-! ### Nothing is lost -/

theorem comment_append (cs : List Char) :
    (comment cs).text ++ (comment cs).rest = '/' :: '*' :: cs := by
  unfold comment
  split
  · rename_i body rest h
    simp [commentBody_append h]
  · simp

theorem quoted_append (quote : Char) (closed unclosed : Token.Kind) (cs : List Char) :
    (quoted quote closed unclosed cs).text ++ (quoted quote closed unclosed cs).rest
      = quote :: cs := by
  simp [quoted, ofQuoted, quotedBody_append]

theorem punctuation_append (c : Char) (cs : List Char) :
    (punctuation c cs).text ++ (punctuation c cs).rest = c :: cs := by
  unfold punctuation
  split
  · rename_i spelling kind h
    obtain ⟨rest, hrest⟩ := (operator?_eq_some h).2
    simp only [← hrest, List.drop_left]
  · rfl

/-- The lexeme and the rest make up the whole text. -/
theorem scan_append (c : Char) (cs : List Char) : (scan c cs).text ++ (scan c cs).rest = c :: cs := by
  unfold scan
  split
  · simp [List.takeWhile_append_dropWhile]
  split
  · rename_i h
    rw [comment_append, h.1]
    cases cs <;> simp_all
  split
  · rename_i h
    cases cs <;> simp_all
  split
  · exact quoted_append ..
  split
  · exact quoted_append ..
  split
  · exact numberParts_append _
  split
  · simp [symbol, List.takeWhile_append_dropWhile]
  · exact punctuation_append c cs

/-! ### Lexemes are not empty -/

/-- A text that begins with a number has at least one character in it. -/
theorem number_text_ne_nil {c : Char} {cs : List Char} (h : startsNumber c cs = true) :
    (number (c :: cs)).text ≠ [] := by
  by_cases hd : isDigit c = true
  · simp [number, ofNumber, numberParts, run, hd]
  · have hdot : c = '.' := by
      simp only [startsNumber, hd, Bool.false_or, Bool.and_eq_true, beq_iff_eq] at h
      exact h.1
    subst hdot
    simp [number, ofNumber, numberParts, run, hd, fractionPart]

/-- A lexeme is never empty. -/
theorem scan_text_ne_nil (c : Char) (cs : List Char) : (scan c cs).text ≠ [] := by
  unfold scan
  split
  · simp
  split
  · unfold comment
    split <;> simp
  split
  · simp
  split
  · simp [quoted, ofQuoted]
  split
  · simp [quoted, ofQuoted]
  split
  · rename_i h
    exact number_text_ne_nil h
  split
  · rename_i h
    simp [symbol_of_starts h]
  · unfold punctuation
    split
    · rename_i h
      exact (operator?_eq_some h).1
    · simp

/-- Reading a lexeme makes the text shorter. -/
theorem length_scan_rest_lt (c : Char) (cs : List Char) :
    (scan c cs).rest.length < (c :: cs).length := by
  have happ := congrArg List.length (scan_append c cs)
  have hne := List.length_pos_iff.2 (scan_text_ne_nil c cs)
  rw [List.length_append] at happ
  omega

end Lexeme

end RexxService
