import RexxService.Lexeme.Basic
import RexxService.Position

/-!
# The lexer

A `Lexer` hands out the tokens of a text one at a time and keeps the faults of the tokens it has
handed out until they are taken.  Every character of the text ends up in exactly one token, and a
faulty piece of text is a token like any other, so nothing stops the lexer before the end.

* **`next`** — the next token, and the lexer after it;
* **`takeFaults`** — the faults held so far, and the lexer without them;
* **`drain`** — all remaining tokens;
* **`tokenize`** — the tokens and faults of a whole text.
-/

namespace RexxService

/-- A text that is being cut into tokens. -/
structure Lexer where
  /-- The text that has not been read yet. -/
  input : List Char
  /-- The place of that text. -/
  cursor : Cursor
  /-- The faults that have not been taken yet, newest first. -/
  held : List Fault
deriving DecidableEq, Repr

namespace Lexer

def ofText (text : String) : Lexer := ⟨text.toList, Cursor.origin, []⟩

def place (x : Lexeme) (start stop : Cursor) : Token where
  kind := x.kind
  text := String.ofList x.text
  line := start.position.line
  column := start.position.column
  offset := start.offset
  endOffset := stop.offset

def faultOf (x : Lexeme) (t : Token) : Option Fault := x.fault.map fun k => ⟨k, t⟩

def hold (held : List Fault) : Option Fault → List Fault
  | none => held
  | some f => f :: held

/-- Reads a lexeme: its token, and the lexer after it. -/
def emit (l : Lexer) (x : Lexeme) : Token × Lexer :=
  let stop := l.cursor.advance x.text x.rest
  let token := place x l.cursor stop
  (token, ⟨x.rest, stop, hold l.held (faultOf x token)⟩)

/-- The next token, and the lexer after it. -/
def next (l : Lexer) : Option (Token × Lexer) :=
  match l.input with
  | [] => none
  | c :: cs => some (l.emit (Lexeme.scan c cs))

/-- Taking a token makes the unread text shorter. -/
theorem next_input_length_lt {l l' : Lexer} {t : Token} (h : l.next = some (t, l')) :
    l'.input.length < l.input.length := by
  unfold next at h
  split at h
  · simp at h
  · rename_i c cs hin
    have he : (l.emit (Lexeme.scan c cs)).2 = l' := congrArg Prod.snd (Option.some.inj h)
    rw [← he, hin]
    exact Lexeme.length_scan_rest_lt c cs

/-- The faults held so far, oldest first, and the lexer without them. -/
def takeFaults (l : Lexer) : List Fault × Lexer := (l.held.reverse, { l with held := [] })

/-- All remaining tokens, and the lexer at the end of the text. -/
def drain (l : Lexer) : List Token × Lexer :=
  match _h : l.next with
  | none => ([], l)
  | some (t, l') =>
      let (ts, last) := l'.drain
      (t :: ts, last)
termination_by l.input.length
decreasing_by exact next_input_length_lt _h

end Lexer

def tokenize (text : String) : List Token × List Fault :=
  let (tokens, last) := (Lexer.ofText text).drain
  (tokens, last.takeFaults.1)

end RexxService
