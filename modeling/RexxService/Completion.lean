import RexxService.Lexeme.Patterns
import RexxService.Model

/-!
# Completion

The names that may be typed at a position.
-/

/-!
## Matching typed text

How a name is matched with the text typed so far.  Case-sensitive matching accepts the longer names
that begin with that text; case-insensitive matching compares lowercase forms and accepts a name
that equals the text as well.
-/

namespace RexxService

open RexxService.Text

inductive Matching where
  | caseSensitive
  | caseInsensitive
deriving DecidableEq, Repr

namespace Matching

def begins (text front : String) : Bool := front.toList.isPrefixOf text.toList

/-- Whether a name is offered for the text typed so far. -/
def accepts (mode : Matching) (typed name : String) : Bool :=
  match mode with
  | caseSensitive => begins name typed && name != typed
  | caseInsensitive => begins (lowercase name) (lowercase typed)

end Matching

end RexxService

/-!
## Stems of compound names

A compound name such as `stem.1.name` is offered step by step: `stem.`, then `stem.1.`, and at last
the whole name.  The stems of a name are its beginnings that end in a dot; with the whole name they
are its `steps`.
-/

namespace RexxService.Completion

/-- The stems of a name, shortest first, and the name itself. -/
def steps : List Char → List (List Char)
  | [] => []
  | [c] => [[c]]
  | c :: d :: cs =>
      let longer := (steps (d :: cs)).map (c :: ·)
      if c = '.' then [c] :: longer else longer

/-- The steps of a name with more than `typed` characters. -/
def stepsBeyond (typed : Nat) (name : String) : List String :=
  ((steps name.toList).filter fun s => decide (typed < s.length)).map String.ofList

end RexxService.Completion

/-!
## Items on offer

Completion at a position extends the token that ends there, its *anchor*.  After a blank or an opening
parenthesis nothing has been typed, so every variable and every label is offered at the position
itself.  Otherwise the text of the anchor is what has been typed: the names that match it are
offered in its place, the built-in functions and keywords among them.  Nothing is offered in a
comment.

* **`anchor`** — the token that is extended;
* **`Prompt`** — what has been typed and what it is replaced by;
* **`complete`** — the items, variables first, then labels, functions and keywords.
-/

namespace RexxService

namespace Completion

inductive Kind where
  | var
  | label
  | function
  | keyword
deriving DecidableEq, Repr

def Kind.describe : Kind → String
  | var => "Variable"
  | label => "Label"
  | function => "Function"
  | keyword => "Keyword"

structure Item where
  kind : Kind
  /-- The name, which is shown and inserted. -/
  name : String
  /-- The part of the text that the name replaces. -/
  range : Span
deriving DecidableEq, Repr

def Item.detail (i : Item) : String := i.kind.describe ++ " " ++ i.name

/-- What a completion starts from. -/
structure Prompt where
  /-- The text typed so far. -/
  typed : String
  /-- Whether every variable and label is offered. -/
  unrestricted : Bool
  /-- The part of the text that an offered name replaces. -/
  range : Span
deriving DecidableEq, Repr

/-- Whether a name fits what has been typed. -/
def Prompt.admits (q : Prompt) (mode : Matching) (name : String) : Bool :=
  q.unrestricted || mode.accepts q.typed name

def Prompt.offer (q : Prompt) (kind : Kind) (names : List String) : List Item :=
  names.map fun name => ⟨kind, name, q.range⟩

/-- The names to offer for some variables, each once. -/
def Prompt.variableNames (q : Prompt) (mode : Matching) (vars : List Token) : List String :=
  let admitted := (vars.map (·.text)).filter (q.admits mode)
  (admitted.flatMap (stepsBeyond q.typed.length)).eraseDups

def Prompt.labelNames (q : Prompt) (mode : Matching) (labels : List Token) : List String :=
  (labels.map (·.text)).filter (q.admits mode)

/-- The built-in words to offer from a list; without typed text there are none. -/
def Prompt.builtins (q : Prompt) (state : Freshness) (mode : Matching) (words : List String) :
    Except Cancelled (List String) :=
  if q.typed.isEmpty then return []
  else return (← state.visit words).filter (mode.accepts q.typed)

def Prompt.items (q : Prompt) (m : Model) (state : Freshness) (mode : Matching) :
    Except Cancelled (List Item) := do
  let vars ← state.visit m.vars
  let labels ← state.visit m.labels
  let functions ← q.builtins state mode Vocabulary.functions
  let keywords ← q.builtins state mode Vocabulary.keywords
  return q.offer .var (q.variableNames mode vars)
    ++ q.offer .label (q.labelNames mode labels)
    ++ q.offer .function functions
    ++ q.offer .keyword keywords

def promptAt (t : Token) (p : Position) : Except Overflow Prompt :=
  if t.kind.isOpening then return ⟨"", true, Span.single p⟩
  else return ⟨t.text, false, ← t.span⟩

/-- The characters that ask for completion while typing. -/
def triggers : List String :=
  (['_', '$', '.'] ++ "abcdefghijklmnopqrstuvwxyzABCDEFGHIJKLMNOPQRSTUVWXYZ".toList).map
    String.singleton

end Completion

namespace Model

open Completion

/-- The token that completion at a position extends: the one that typing there extends, or the one
before it when that one only begins there and nothing is typed after it yet. -/
def anchor (m : Model) (p : Position) : Except Overflow (Option Token) := do
  match ← m.locatePrevious p with
  | none => return none
  | some i =>
      match m.tokens[i]? with
      | none => return none
      | some t =>
          if t.kind.isOpening ∧ t.start = p then return m.tokens[i - 1]? else return some t

def complete (m : Model) (state : Freshness) (p : Position) (mode : Matching) :
    Except Failure (List Item) := do
  match ← Failure.ofCount (m.anchor p) with
  | none => return []
  | some t =>
      if t.kind.isComment then return []
      else
        let q ← Failure.ofCount (promptAt t p)
        Failure.ofVisit (q.items m state mode)

end Model

end RexxService
