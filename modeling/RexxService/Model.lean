import RexxService.Lexer
import RexxService.Symbols

/-!
# Models of a text

What is known about a text: how it is found by parsing, and how tokens are found in it by position.
-/

/-!
## Models

A `Model` is what is known about one text of one document: all its tokens, its variables, its labels
and its faults.
-/

namespace RexxService

/-- The result of analysing a text. -/
structure Model where
  uri : String
  tokens : Array Token
  vars : List Token
  labels : List Token
  faults : List Fault
deriving DecidableEq, Repr

namespace Model

def empty (uri : String) : Model := ⟨uri, #[], [], [], []⟩

def ofSymbols (uri : String) (tokens : Array Token) (s : Symbols) : Model :=
  ⟨uri, tokens, s.vars, s.labels, s.faults⟩

def hasFaults (m : Model) : Bool := !m.faults.isEmpty

/-- The source text, put together from its tokens. -/
def text (m : Model) : String := String.join (m.tokens.toList.map (·.text))

/-- The characters of a path after its last separator. -/
def lastSegment (path : List Char) : List Char :=
  (path.reverse.takeWhile fun c => c != '/' && c != '\\').reverse

/-- The scheme in front of the path of a file. -/
def fileScheme : List Char := "file://".toList

def pathOf (uri : String) : List Char :=
  if fileScheme.isPrefixOf uri.toList then uri.toList.drop fileScheme.length else uri.toList

/-- The name of a document without a file name. -/
def unnamed : String := "not parsed"

def fileName (m : Model) : String :=
  let name := lastSegment (pathOf m.uri)
  if name.isEmpty then unnamed else String.ofList name

end Model

/-!
## Parsing

A text is parsed in one pass.  The lexer hands out one token after the other; a `Reading` keeps all of
them, and shows each significant token to the collector as soon as the significant token after it is
known.  Faults of the lexer that lie between the two wait until then, so a fault that the collector
finds at the first token stands before them.

* **`parseWhile`** parses while the text is current, and gives up when it is stale;
* **`parse`** parses a text that nobody will replace.
-/

/-- A parse under way. -/
structure Reading where
  /-- The tokens read so far. -/
  tokens : Array Token
  collector : Collector
  /-- The significant token before the current one. -/
  previous : Option Token
  /-- The significant token that waits for the one after it. -/
  current : Option Token
  /-- The faults found by the lexer after the current token. -/
  waiting : List Fault
deriving DecidableEq, Repr

namespace Reading

def empty : Reading := ⟨#[], Collector.empty, none, none, []⟩

/-- Shows the current token to the collector, given the significant token after it, and then the
faults that were waiting. -/
def settleCurrent (r : Reading) (state : Freshness) (next : Option Token) :
    Except Cancelled Collector := do
  let (outcome, collector) := match r.current with
    | none => (Except.ok (), r.collector)
    | some t => r.collector.handle state r.previous t next
  outcome
  return collector.addFaults r.waiting

/-- Takes a token with the faults found at it. -/
def feed (r : Reading) (state : Freshness) (t : Token) (faults : List Fault) :
    Except Cancelled Reading := do
  let r := { r with tokens := r.tokens.push t, waiting := r.waiting ++ faults }
  if t.kind.isTrivia then return r
  else
    let collector ← r.settleCurrent state (some t)
    return ⟨r.tokens, collector, r.current, some t, []⟩

/-- The symbols found, once the last token has been taken. -/
def finish (r : Reading) (state : Freshness) : Except Cancelled Symbols := do
  let collector ← r.settleCurrent state none
  collector.finish state

def consume (state : Freshness) (r : Reading) (l : Lexer) : Except Cancelled Reading :=
  match _h : l.next with
  | none => return r
  | some (t, l') => do
      state.check
      let r ← r.feed state t l'.takeFaults.1
      consume state r l'.takeFaults.2
termination_by l.input.length
decreasing_by
  have hlt := Lexer.next_input_length_lt _h
  exact hlt

end Reading

namespace Model

/-- The model of a text, as long as the text is current. -/
def parseWhile (state : Freshness) (uri text : String) : Except Cancelled Model := do
  let reading ← Reading.consume state Reading.empty (Lexer.ofText text)
  let symbols ← reading.finish state
  return ofSymbols uri reading.tokens symbols

def parse (uri text : String) : Model :=
  match parseWhile .fresh uri text with
  | .ok m => m
  | .error _ => empty uri

end Model

/-!
## Finding tokens by position

The tokens of a model stand in the order of their places, so the token at a position is found by
halving.  Each comparison asks whether a token contains the position, and otherwise on which side of
the position the token begins.

* **`locate`** — the token at a position, or the last token when no token is there;
* **`locatePrevious`** — the token that typing at a position extends.
-/

/-- On which side of a position a token lies: `eq` when it contains the position. -/
def Token.side (t : Token) (p : Position) : Except Overflow Ordering := do
  if ← t.contains p then return .eq
  else if t.line = p.line then return compare t.column p.column
  else return compare t.line p.line

namespace Model

/-- The last of the `size` tokens from `base` on that does not lie after a position, or `base` when
all of them do. -/
def narrow (tokens : Array Token) (p : Position) (base size : Nat) : Except Overflow Nat :=
  if size ≤ 1 then return base
  else
    match tokens[base + size / 2]? with
    | none => return base
    | some t => do
        let side ← t.side p
        narrow tokens p (if side = .gt then base else base + size / 2) (size - size / 2)
termination_by size
decreasing_by omega

/-- The index of the token at a position, or of the last token; `none` without tokens. -/
def locate (m : Model) (p : Position) : Except Overflow (Option Nat) := do
  let base ← narrow m.tokens p 0 m.tokens.size
  match m.tokens[base]? with
  | none => return none
  | some t =>
      let side ← t.side p
      return some (if side = .eq then base else m.tokens.size - 1)

/-- The index of the token that typing at a position extends.  That is the located token when it is
a comment or a string, or the last token and not blank; otherwise it is the token before it. -/
def locatePrevious (m : Model) (p : Position) : Except Overflow (Option Nat) := do
  match ← m.locate p with
  | none => return none
  | some i =>
      match m.tokens[i]? with
      | none => return none
      | some t =>
          if t.kind.isComment || t.kind.isQuoted then return some i
          else if i + 1 = m.tokens.size ∧ t.kind ≠ .whitespace then return some i
          else return some (i - 1)

end Model

end RexxService
