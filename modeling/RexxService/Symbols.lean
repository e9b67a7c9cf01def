import RexxService.Text.Lowercase
import RexxService.Token

/-!
# Symbols of a text

The variables and labels of a text, the blocks that do not match, and the collector that finds all of these.
-/

/-!
## Tables of names

A `NameTable` holds one token per name, in the order in which the names were met.  Two spellings with the same
lowercase form are the same name, and the spelling met first is kept.  When all names are known, `sortByName`
puts the tokens in the order of their names.
-/

namespace RexxService

open RexxService.Text

/-- Tokens of different names, and the set of these names. -/
structure NameTable where
  tokens : Array Token
  seen : List String
  seen_iff : ∀ name, name ∈ seen ↔ ∃ t ∈ tokens, lowercase t.text = name
  distinct : tokens.toList.Pairwise fun t u => lowercase t.text ≠ lowercase u.text
deriving DecidableEq, Repr

namespace NameTable

def empty : NameTable := ⟨#[], [], by simp, by simp⟩

variable (table : NameTable) (t : Token)

theorem seen_iff_push (name : String) :
    name ∈ lowercase t.text :: table.seen ↔ ∃ u ∈ table.tokens.push t, lowercase u.text = name := by
  rw [List.mem_cons, table.seen_iff]
  constructor
  · rintro (rfl | ⟨u, hu, rfl⟩)
    · exact ⟨t, Array.mem_push_self, rfl⟩
    · exact ⟨u, Array.mem_push_of_mem t hu, rfl⟩
  · rintro ⟨u, hu, rfl⟩
    rcases Array.mem_push.1 hu with hu | rfl
    · exact Or.inr ⟨u, hu, rfl⟩
    · exact Or.inl rfl

theorem distinct_push (h : lowercase t.text ∉ table.seen) :
    (table.tokens.push t).toList.Pairwise fun u v => lowercase u.text ≠ lowercase v.text := by
  rw [Array.toList_push, List.pairwise_append]
  refine ⟨table.distinct, List.pairwise_singleton _ _, ?_⟩
  intro u hu v hv heq
  obtain rfl := List.mem_singleton.1 hv
  exact h ((table.seen_iff _).2 ⟨u, Array.mem_toList_iff.1 hu, heq⟩)

/-- Adds a token, unless its name has been seen. -/
def register : NameTable :=
  if h : lowercase t.text ∈ table.seen then table
  else ⟨table.tokens.push t, lowercase t.text :: table.seen, table.seen_iff_push t, table.distinct_push t h⟩

end NameTable

/-- Puts an entry in front of the first one whose key is not smaller. -/
def insertByKey (e : String × Token) : List (String × Token) → List (String × Token)
  | [] => [e]
  | f :: es => if e.1 ≤ f.1 then e :: f :: es else f :: insertByKey e es

/-- Tokens in the order of their names, which are computed once for all comparisons.  Tokens of the same name
stay in the order in which they were. -/
def sortByName (ts : List Token) : List Token :=
  ((ts.map fun t => (lowercase t.text, t)).foldr insertByKey []).map (·.2)

/-- The tokens of a table in the order of their names, collected while the text is current. -/
def NameTable.collect (table : NameTable) (state : Freshness) : Except Cancelled (List Token) :=
  return sortByName (← state.visit table.tokens.toList)

/-!
## Collecting symbols

A `Collector` sees the significant tokens of a text in order, each with its two neighbours, and finds

* **variables** — the identifiers before an equal sign, and those in the template of a `parse`
  instruction.  A template lasts from the keyword `parse` to the next keyword that is not one of
  `arg`, `value`, `source` and `with`;
* **labels** — whatever stands before a colon;
* **faults** — every `end` without an open `do`, and at the end every `do` that is still open.

Faults found elsewhere are added in between, so that all faults share one list.
-/

structure Symbols where
  vars : List Token
  labels : List Token
  faults : List Fault
deriving DecidableEq, Repr

/-- What has been found so far. -/
structure Collector where
  /-- Whether the tokens belong to the template of a `parse` instruction. -/
  inTemplate : Bool
  /-- The open `do` keywords, innermost first. -/
  blocks : List Token
  vars : NameTable
  labels : NameTable
  faults : Array Fault
deriving DecidableEq, Repr

namespace Collector

def empty : Collector := ⟨false, [], NameTable.empty, NameTable.empty, #[]⟩

/-- The words that may follow `parse` without ending its template. -/
def templateWords : List String := ["arg", "value", "source", "with"]

/-- Whether a word, in any case, belongs to a `parse` instruction itself. -/
def isTemplateWord (word : String) : Bool := templateWords.contains (asciiLower word)

def addFaults (s : Collector) (faults : List Fault) : Collector :=
  { s with faults := s.faults ++ faults }

def templateAfter (inTemplate : Bool) (word : String) : Bool :=
  word == "parse" || (inTemplate && isTemplateWord word)

/-- Opens a block at `do`, closes one at `end`. -/
def matchBlock (s : Collector) (t : Token) (word : String) : Collector :=
  if word = "do" then { s with blocks := t :: s.blocks }
  else if word = "end" then
    match s.blocks with
    | [] => { s with faults := s.faults.push ⟨.unmatchedEnd, t⟩ }
    | _ :: blocks => { s with blocks := blocks }
  else s

def onKeyword (s : Collector) (t : Token) : Collector :=
  let word := asciiLower t.text
  { s with inTemplate := templateAfter s.inTemplate word }.matchBlock t word

/-- Whether an identifier is a variable, given the token after it. -/
def isVariable (s : Collector) (t : Token) (next : Option Token) : Bool :=
  next.any (fun u => u.kind == .equal) || (s.inTemplate && !isTemplateWord t.text)

def onIdentifier (s : Collector) (t : Token) (next : Option Token) : Collector :=
  if s.isVariable t next then { s with vars := s.vars.register t } else s

def onColon (s : Collector) (previous : Option Token) : Collector :=
  match previous with
  | none => s
  | some t => { s with labels := s.labels.register t }

/-- Takes note of a token between its neighbours, while the text is current.  The freshness of the text is
looked at before anything is noted. -/
def handle (s : Collector) (state : Freshness) (previous : Option Token) (t : Token)
    (next : Option Token) : Except Cancelled Unit × Collector :=
  match t.kind with
  | .keyword =>
      match state.check with
      | .error e => (.error e, s)
      | .ok () => (.ok (), s.onKeyword t)
  | .identifier =>
      match state.check with
      | .error e => (.error e, s)
      | .ok () => (.ok (), s.onIdentifier t next)
  | .colon =>
      match state.check with
      | .error e => (.error e, s)
      | .ok () => (.ok (), s.onColon previous)
  | _ => (.ok (), s)

/-- Takes note of tokens in order, each between its neighbours in the list, after the token
`previous`.  When a token is given up, the collector is what that token has left of it. -/
def feed (s : Collector) (state : Freshness) (previous : Option Token) :
    List Token → Except Cancelled Unit × Collector
  | [] => (.ok (), s)
  | t :: ts =>
      match s.handle state previous t ts.head? with
      | (.error e, s) => (.error e, s)
      | (.ok (), s) => s.feed state (some t) ts

/-- The symbols of the text, once its last token has been seen. -/
def finish (s : Collector) (state : Freshness) : Except Cancelled Symbols := do
  let unmatched := s.blocks.reverse.map fun t => ⟨.unmatchedDo, t⟩
  let vars ← s.vars.collect state
  let labels ← s.labels.collect state
  return ⟨vars, labels, s.faults.toList ++ unmatched⟩

end Collector

end RexxService
