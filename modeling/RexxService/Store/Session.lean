import RexxService.Store.Documents

/-!
# Sessions with a store

Queries, new settings, and sequences of requests.
-/

/-!
## Queries about documents

A query waits for the model of the current text and answers from it.  A query can also be begun now
and finished later: its outcome is then that of the analysis which was current when it was begun.
-/

namespace RexxService

namespace Store

/-- Whether the text of a model that was handed out is still the current one. -/
def freshnessOf (s : Store) (h : Handout) : Freshness :=
  match s.analyses[h.analysis]? with
  | none => .stale
  | some a => a.state

/-- Asks a question of the model of a document's current text. -/
def ask {α : Type} (s : Store) (uri : String)
    (question : Model → Freshness → Except Failure α) : Except AnalysisError α × Store :=
  let (outcome, s) := s.awaitModel uri
  match outcome with
  | .error e => (.error e, s)
  | .ok h => ((question h.model (s.freshnessOf h)).mapError .ofFailure, s)

def completion (s : Store) (uri : String) (p : Position) :
    Except AnalysisError (List Completion.Item) × Store :=
  s.ask uri fun m state => m.complete state p s.config.matching

def symbols (s : Store) (uri : String) : Except AnalysisError (List Outline.Entry) × Store :=
  s.ask uri fun m state => m.outline state

def diagnostics (s : Store) (uri : String) : Except AnalysisError (List Diagnostic) × Store :=
  s.ask uri fun m _ => Failure.ofCount m.diagnostics

/-- Begins a query for the model of a document: its ticket, and the store in which the analysis of
the current text has been started. -/
def request (s : Store) (uri : String) : Ticket × Store :=
  match s.documents.get? uri with
  | none => (.settled (.error (.unknownDocument uri)), s)
  | some doc =>
      let (n, s) := s.ensure uri doc
      match s.analyses[n]?.bind (·.result) with
      | none => (.waiting n, s)
      | some _ => (.settled (s.outcomeOf n), s)

/-- The outcome of a query that was begun earlier. -/
def collect (s : Store) : Ticket → Except AnalysisError Handout
  | .settled outcome => outcome
  | .waiting n => s.outcomeOf n

def keep (s : Store) (name : String) (h : Handout) : Store := { s with kept := s.kept.put name h }

def same (s : Store) (a b : String) : Bool :=
  match s.kept.get? a, s.kept.get? b with
  | some h, some k => h.analysis == k.analysis
  | _, _ => false

/-- Whether the text of a kept model is out of date. -/
def isStale (s : Store) (a : String) : Option Bool :=
  (s.kept.get? a).map fun h => s.freshnessOf h == .stale

end Store

/-!
## Reloading settings

New settings replace the configuration first and the worker pool second.  A limit that the pool cannot
have is refused when the configuration already holds it.  The pool does not recover from that: it
works on as before, and later limits are not looked at.
-/

/-- Why settings were not taken over as a whole. -/
inductive ReloadError where
  | settings (e : SettingsError)
  | pool (e : PoolError)
deriving DecidableEq, Repr

namespace Store

/-- Takes over a configuration, and its limit if the pool is able to. -/
def reconfigure (s : Store) (config : Config) : Except ReloadError Unit × Store :=
  let s := { s with config := config }
  match s.pool with
  | .broken => (.ok (), s)
  | .serving =>
      if Pool.admits config then (.ok (), s)
      else (.error (.pool .tooManyWorkers), { s with pool := .broken })

def applySettings (s : Store) (v : Json) : Except ReloadError Unit × Store :=
  match s.config.merge v with
  | .error e => (.error (.settings e), s)
  | .ok config => s.reconfigure config

end Store

/-!
## Requests and answers

A session is a sequence of requests.  Edits and look-ups are instant: nothing runs in the background
while they are answered.  Queries for models and everything answered from them first let all work
that is due come to its end.

* **`Request`** — what a client asks for;
* **`Answer`** — what it is told;
* **`Store.serve`** — one request;
* **`Store.run`** — a whole session.
-/

inductive Request where
  | opened (uri : String) (version : Int) (text : String)
  | changed (uri : String) (version : Int) (text : String)
  | closed (uri : String)
  | isOpen (uri : String)
  | version (uri : String)
  | text (uri : String)
  | config
  | settings (value : Json)
  /-- Begins a query for a model, to be finished under a name. -/
  | begin (name : String) (uri : String)
  | same (a b : String)
  | stale (a : String)
  /-- Asks for a model, and keeps it under a name if one is given. -/
  | model (uri : String) (name : Option String)
  | completion (uri : String) (position : Position)
  | symbols (uri : String)
  | diagnostics (uri : String)
  | finish (name : String)
  | advance (ms : Nat)

/-- What a client is told. -/
inductive Answer where
  | done
  | flag (value : Bool)
  | version (value : Option Int)
  | text (value : Option String)
  | config (value : Config)
  | ready
  | pending
  | staleness (value : Option Bool)
  | model (value : Model)
  | completion (items : List Completion.Item)
  | symbols (entries : List Outline.Entry)
  | diagnostics (values : List Diagnostic)
  | failed (e : AnalysisError)
  | rejected (e : ReloadError)
  /-- No query was begun under the name. -/
  | unknownTicket

/-- The answer to a request, what was published since the answer before, and the store after it. -/
structure Reply where
  answer : Answer
  published : List Publication
  store : Store

namespace Answer

def ofExcept {α : Type} (f : α → Answer) : Except AnalysisError α → Answer
  | .ok a => f a
  | .error e => .failed e

def ofOutcome : Except AnalysisError Handout → Answer := ofExcept fun h => .model h.model

def ofReload : Except ReloadError Unit → Answer
  | .ok _ => .done
  | .error e => .rejected e

def ofTicket : Ticket → Answer
  | .settled _ => .ready
  | .waiting _ => .pending

end Answer

namespace Store

/-- The answer to an instant look-up. -/
def reply (s : Store) (answer : Answer) : Reply := ⟨answer, [], s⟩

def beginQuery (s : Store) (name uri : String) : Reply :=
  let (ticket, s) := s.request uri
  ⟨.ofTicket ticket, [], { s with tickets := s.tickets.put name ticket }⟩

def finishQuery (s : Store) (name : String) : Answer :=
  match s.tickets.get? name with
  | none => .unknownTicket
  | some ticket => .ofOutcome (s.collect ticket)

/-- Keeps the model of an outcome, if there is one and a name for it. -/
def keepOutcome (s : Store) (name : Option String) (outcome : Except AnalysisError Handout) : Store :=
  match name, outcome with
  | some name, .ok h => s.keep name h
  | _, _ => s

def serve (s : Store) : Request → Reply
  | .opened uri version text => ⟨.done, [], s.openDocument uri version text⟩
  | .changed uri version text => ⟨.done, [], s.changeDocument uri version text⟩
  | .closed uri =>
      let (published, s) := s.closeDocument uri
      ⟨.done, published, s⟩
  | .isOpen uri => s.reply (.flag (s.isOpen uri))
  | .version uri => s.reply (.version (s.version uri))
  | .text uri => s.reply (.text (s.text uri))
  | .config => s.reply (.config s.config)
  | .settings value =>
      let (result, s) := s.applySettings value
      s.reply (.ofReload result)
  | .begin name uri => s.beginQuery name uri
  | .same a b => s.reply (.flag (s.same a b))
  | .stale a => s.reply (.staleness (s.isStale a))
  | .model uri name =>
      let (published, s) := s.settle
      let (outcome, s) := s.awaitModel uri
      ⟨.ofOutcome outcome, published, s.keepOutcome name outcome⟩
  | .completion uri position =>
      let (published, s) := s.settle
      let (result, s) := s.completion uri position
      ⟨.ofExcept .completion result, published, s⟩
  | .symbols uri =>
      let (published, s) := s.settle
      let (result, s) := s.symbols uri
      ⟨.ofExcept .symbols result, published, s⟩
  | .diagnostics uri =>
      let (published, s) := s.settle
      let (result, s) := s.diagnostics uri
      ⟨.ofExcept .diagnostics result, published, s⟩
  | .finish name =>
      let (published, s) := s.settle
      ⟨s.finishQuery name, published, s⟩
  | .advance ms =>
      let (published, s) := s.advance ms
      ⟨.done, published, s⟩

def run (s : Store) : List Request → List Reply
  | [] => []
  | r :: rs =>
      let first := s.serve r
      first :: first.store.run rs

end Store

/-- The publications of a reply, ordered by document and within a document by time. -/
def Reply.report (r : Reply) : List Publication :=
  r.published.mergeSort fun p q => !decide (q.uri < p.uri)

end RexxService
