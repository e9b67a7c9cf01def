import RexxService.Store.Basic

/-!
# Documents of a store

How documents are analysed, how their diagnostics are published, and how they are opened, changed and closed.
-/

/-!
## Analyses of documents

An analysis is started at most once per text, and everybody who asks for the model of that text gets
the same one.  Starting only takes a number; the work is done by `run`, and `cancel` marks an
analysis whose text has been replaced.
-/

namespace RexxService

namespace Analysis

/-- Does the work of an analysis that is still wanted and has not run. -/
def run (a : Analysis) : Analysis :=
  match a.state, a.result with
  | .fresh, none => { a with result := some (Model.parse a.uri a.text) }
  | _, _ => a

def cancel (a : Analysis) : Analysis := { a with state := .stale }

/-- The model of an analysis for somebody who has waited for it: none once the text is out of date. -/
def outcome (a : Analysis) : Except AnalysisError Model :=
  match a.state, a.result with
  | .fresh, some m => .ok m
  -- The analysis came to its end, and its text was replaced afterwards.
  | .stale, some _ => .error .cancelled
  -- The text was replaced before the analysis came to its end.
  | .stale, none => .error .cancelled
  -- Nobody has waited: an analysis that is wanted runs before its outcome is asked for.
  | .fresh, none => .error .cancelled

end Analysis

namespace Store

/-- Starts an analysis of a text, and returns its number. -/
def start (s : Store) (uri text : String) : Nat × Store :=
  (s.analyses.size, { s with analyses := s.analyses.push ⟨uri, text, .fresh, none⟩ })

/-- The current analysis of an open document, started if there is none. -/
def ensure (s : Store) (uri : String) (doc : Document) : Nat × Store :=
  match doc.analysis with
  | some n => (n, s)
  | none =>
      let (n, s) := s.start uri doc.text
      (n, { s with documents := s.documents.put uri { doc with analysis := some n } })

/-- Marks the current analysis of a document, if there is one, as out of date. -/
def invalidate (s : Store) (uri : String) : Store :=
  match (s.documents.get? uri).bind (·.analysis) with
  | none => s
  | some n => { s with analyses := s.analyses.modify n Analysis.cancel }

def runOne (s : Store) (n : Nat) : Store :=
  { s with analyses := s.analyses.modify n Analysis.run }

def runAll (s : Store) : Store := { s with analyses := s.analyses.map Analysis.run }

def outcomeOf (s : Store) (n : Nat) : Except AnalysisError Handout :=
  match s.analyses[n]? with
  | none => .error .cancelled
  | some a => return ⟨n, ← a.outcome⟩

/-- Waits for the model of a document's current text. -/
def awaitModel (s : Store) (uri : String) : Except AnalysisError Handout × Store :=
  match s.documents.get? uri with
  | none => (.error (.unknownDocument uri), s)
  | some doc =>
      let (n, s) := s.ensure uri doc
      let s := s.runOne n
      (s.outcomeOf n, s)

/-!
## Publishing diagnostics

Opening or changing a document schedules a task, which runs once its delay has passed.  A task
publishes only if the document is still open with the version it was scheduled for.  `settle` does
all the work that is due, and `advance` lets time pass.
-/

def schedule (s : Store) (uri : String) (version : Int) (delay : Nat) : Store :=
  if s.publishes then { s with tasks := s.tasks ++ [⟨uri, version, s.clock + delay⟩] } else s

/-- What a task publishes about a model, if the diagnostics can be told. -/
def publicationOf (t : Task) (m : Model) : List Publication :=
  match m.diagnostics with
  | .error _ => []
  | .ok ds => [⟨t.uri, some t.version, ds⟩]

/-- Runs a task.  The version of the document is looked at before the model is awaited, and once more when it
has come. -/
def runTask (s : Store) (t : Task) : List Publication × Store :=
  if s.version t.uri = some t.version then
    let (outcome, s) := s.awaitModel t.uri
    let published := match outcome with
      | .error _ => []
      | .ok h => if s.version t.uri = some t.version then publicationOf t h.model else []
    (published, s)
  else ([], s)

def runTasks (s : Store) : List Task → List Publication × Store
  | [] => ([], s)
  | t :: ts =>
      let (ps, s) := s.runTask t
      let (qs, s) := s.runTasks ts
      (ps ++ qs, s)

/-- Does all the work that is due: every started analysis, then every task whose time has come. -/
def settle (s : Store) : List Publication × Store :=
  let s := s.runAll
  let (now, later) := s.tasks.partition fun t => decide (t.due ≤ s.clock)
  { s with tasks := later }.runTasks now

def advance (s : Store) (ms : Nat) : List Publication × Store :=
  let (ps, s) := s.settle
  let (qs, s) := { s with clock := s.clock + ms }.settle
  (ps ++ qs, s)

/-!
## Editing documents

Opening, changing and closing documents.  Each edit puts the earlier analysis of the document out of
date.  Opening starts the next one at once; a change leaves that to the first query.
-/

/-- Opens a document, or replaces it when it is open already. -/
def openDocument (s : Store) (uri : String) (version : Int) (text : String) : Store :=
  let (n, s) := (s.invalidate uri).start uri text
  let s := { s with documents := s.documents.put uri ⟨version, text, some n⟩ }
  s.schedule uri version s.config.openDelay

/-- Replaces the text of an open document; a document that is not open stays closed. -/
def changeDocument (s : Store) (uri : String) (version : Int) (text : String) : Store :=
  if s.isOpen uri then
    let s := s.invalidate uri
    let s := { s with documents := s.documents.put uri ⟨version, text, none⟩ }
    s.schedule uri version s.config.changeDelay
  else s

/-- Forgets a document and clears its diagnostics. -/
def closeDocument (s : Store) (uri : String) : List Publication × Store :=
  let s := s.invalidate uri
  (if s.publishes then [⟨uri, none, []⟩] else [], { s with documents := s.documents.erase uri })

end Store

end RexxService
