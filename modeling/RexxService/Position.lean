import RexxService.Text.Characters

/-!
# Positions in a text

Positions and spans, and the place of a reader who goes through a text.
-/

/-!
## Positions and spans

A `Position` is a zero-based line together with a column, counted in sixteen-bit units from the start
of that line.  Positions are ordered by line first and column second.  A `Span` is the part of a text
between two positions.
-/

namespace RexxService

/-- A place in a text. -/
structure Position where
  line : Nat
  column : Nat
deriving DecidableEq, Repr

namespace Position

def origin : Position := ⟨0, 0⟩

/-- How two positions are ordered: by line, then by column. -/
def order (p q : Position) : Ordering :=
  (compare p.line q.line).then (compare p.column q.column)

def nextLine (p : Position) : Position := ⟨p.line + 1, 0⟩

/-- The place `n` units further on the same line. -/
def right (p : Position) (n : Nat) : Position := ⟨p.line, p.column + n⟩

/-- A position in the form `line:column`. -/
def render (p : Position) : String := toString p.line ++ ":" ++ toString p.column

end Position

/-- The part of a text from `start` up to `stop`. -/
structure Span where
  start : Position
  stop : Position
deriving DecidableEq, Repr

namespace Span

def single (p : Position) : Span := ⟨p, p⟩

/-- A span in the form `line:column-column` on one line, and `line:column-line:column` otherwise. -/
def render (s : Span) : String :=
  if s.start.line = s.stop.line then s.start.render ++ "-" ++ toString s.stop.column
  else s.start.render ++ "-" ++ s.stop.render

end Span

/-!
## The place of a reader in a text

A `Cursor` counts lines, columns and offsets while a text is read one character at a time.  The
carriage return of a two-character line break still counts as a column of its line; the line feed
after it then begins the next line.
-/

open RexxService.Text

/-- A position together with its offset from the start of the text. -/
structure Cursor where
  position : Position
  offset : Nat
deriving DecidableEq, Repr

namespace Cursor

def origin : Cursor := ⟨Position.origin, 0⟩

/-- The position after a character, given the character that follows it.  Unlike `Token.endPosition` it sets no
bound on lines and columns; those of a text with fewer than `Counter.placeLimit` units stay below that limit. -/
def positionAfter (p : Position) (c : Char) (next : Option Char) : Position :=
  if c = '\n' then p.nextLine
  else if c = '\r' then if next = some '\n' then p.right 1 else p.nextLine
  else p.right (charUnits c)

/-- The place after a character, given the character that follows it. -/
def step (k : Cursor) (c : Char) (next : Option Char) : Cursor :=
  ⟨positionAfter k.position c next, k.offset + charUnits c⟩

/-- The place after the characters `cs`, given the text that follows them. -/
def advance (k : Cursor) (cs rest : List Char) : Cursor :=
  match cs with
  | [] => k
  | c :: cs => (k.step c (cs.head?.or rest.head?)).advance cs rest

@[simp] theorem advance_nil (k : Cursor) (rest : List Char) : k.advance [] rest = k := rfl

@[simp] theorem advance_cons (k : Cursor) (c : Char) (cs rest : List Char) :
    k.advance (c :: cs) rest = (k.step c (cs.head?.or rest.head?)).advance cs rest := rfl

/-- Offsets grow by the length of the text that is read. -/
@[simp] theorem advance_offset (k : Cursor) (cs rest : List Char) :
    (k.advance cs rest).offset = k.offset + units cs := by
  induction cs generalizing k with
  | nil => simp
  | cons c cs ih =>
      rw [advance_cons, ih, units_cons]
      simp only [step]
      omega

end Cursor

end RexxService
