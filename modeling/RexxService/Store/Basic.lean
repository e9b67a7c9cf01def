import RexxService.Message

/-!
# The state of a document store

Tables by key, the failures of a store, and the store itself.
-/

/-!
## Tables by key

A `Table` keeps one value per key.  Only look-ups are observed, so the order of the entries does not
matter: `put` moves its key to the front.
-/

namespace RexxService

/-- Values under keys, each key at most once. -/
structure Table (α : Type) where
  entries : List (String × α)
deriving DecidableEq, Repr

namespace Table

variable {α : Type}

def empty : Table α := ⟨[]⟩

def get? (t : Table α) (key : String) : Option α := t.entries.lookup key

def erase (t : Table α) (key : String) : Table α := ⟨t.entries.filter fun e => e.1 != key⟩

/-- The table with a value under a key, whatever was there before. -/
def put (t : Table α) (key : String) (value : α) : Table α := ⟨(key, value) :: (t.erase key).entries⟩

@[simp] theorem get?_empty (key : String) : (empty : Table α).get? key = none := rfl

/-- Erasing a key leaves every other key as it is. -/
theorem get?_erase (t : Table α) (key other : String) :
    (t.erase key).get? other = if other = key then none else t.get? other := by
  obtain ⟨entries⟩ := t
  simp only [get?, erase]
  induction entries with
  | nil => simp
  | cons e es ih =>
      obtain ⟨k, v⟩ := e
      by_cases he : k = key
      · subst he
        rw [List.filter_cons_of_neg (by simp), ih]
        by_cases ho : other = k
        · simp [ho]
        · have hne : (other == k) = false := by simp [ho]
          simp [ho, List.lookup_cons, hne]
      · rw [List.filter_cons_of_pos (by simp [he]), List.lookup_cons, List.lookup_cons, ih]
        by_cases ho : other = key
        · subst ho
          have hne : (other == k) = false := by simp [Ne.symm he]
          simp [hne]
        · simp [ho]

/-- Putting a value shows under its key only. -/
theorem get?_put (t : Table α) (key other : String) (value : α) :
    (t.put key value).get? other = if other = key then some value else t.get? other := by
  have herase := get?_erase t key other
  simp only [get?, put, List.lookup_cons] at herase ⊢
  by_cases ho : other = key
  · simp [ho]
  · have hne : (other == key) = false := by simp [ho]
    simp [hne, herase, ho]

end Table

/-!
## Failures of a document store

Why a store has no answer to a query about a document.
-/

/-- Why a query about a document has no answer. -/
inductive AnalysisError where
  /-- The document is not open. -/
  | unknownDocument (uri : String)
  /-- The text changed while the query was waiting. -/
  | cancelled
  /-- The analysis did not come to an end. -/
  | worker (reason : String)
  /-- A place in the text cannot be counted. -/
  | overflow (cause : Overflow)
deriving DecidableEq, Repr

namespace AnalysisError

def message : AnalysisError → String
  | unknownDocument uri => "unknown document " ++ uri
  | cancelled => "analysis cancelled"
  | worker reason => "analysis worker failed: " ++ reason
  | overflow cause => cause.message

def ofFailure : Failure → AnalysisError
  | .cancelled => cancelled
  | .overflow cause => overflow cause

end AnalysisError

/-!
## Documents, analyses and the store

A store keeps the open documents.  Each document has at most one current analysis; the store remembers
every analysis it has ever started, so that a model handed out earlier still tells whether its text
is out of date.

* **`Analysis`** — one analysis of one text: whether it is still wanted, and its model once it has run;
* **`Document`** — the version and text of an open document, and its current analysis;
* **`Task`** — diagnostics to be published later for one version of a document;
* **`Ticket`** — a query that has been asked and whose outcome is collected later.
-/

/-- One analysis of one text. -/
structure Analysis where
  uri : String
  text : String
  /-- Whether the text is still the current one. -/
  state : Freshness
  /-- The model, once the analysis has run. -/
  result : Option Model
deriving DecidableEq, Repr

structure Document where
  version : Int
  text : String
  /-- The number of the analysis of this text, once one has been started. -/
  analysis : Option Nat
deriving DecidableEq, Repr

/-- Diagnostics to be published for a version of a document. -/
structure Task where
  uri : String
  version : Int
  /-- The time from which on the task may run. -/
  due : Nat
deriving DecidableEq, Repr

/-- Diagnostics of a document that have been made public; without a version they clear earlier ones. -/
structure Publication where
  uri : String
  version : Option Int
  diagnostics : List Diagnostic
deriving DecidableEq, Repr

/-- A model together with the number of the analysis that made it. -/
structure Handout where
  analysis : Nat
  model : Model
deriving DecidableEq, Repr

/-- A query that has been asked. -/
inductive Ticket where
  /-- The outcome is known. -/
  | settled (outcome : Except AnalysisError Handout)
  /-- The outcome is that of an analysis which had not run when the query was asked. -/
  | waiting (analysis : Nat)

/-- Whether the limit on concurrent analyses can still be set. -/
inductive Pool where
  | serving
  /-- A limit has been refused, and later limits are not looked at. -/
  | broken
deriving DecidableEq, Repr

structure Store where
  config : Config
  pool : Pool
  /-- Whether diagnostics are published. -/
  publishes : Bool
  /-- The time in milliseconds. -/
  clock : Nat
  documents : Table Document
  /-- Every analysis started so far, by its number. -/
  analyses : Array Analysis
  /-- The tasks that have not run yet, oldest first. -/
  tasks : List Task
  /-- The queries that have been asked, by name. -/
  tickets : Table Ticket
  /-- The models that have been kept, by name. -/
  kept : Table Handout

/-- A limit on concurrent analyses that the pool cannot have. -/
inductive PoolError where
  | tooManyWorkers
deriving DecidableEq, Repr

namespace Pool

/-- The largest number of analyses that may run at once. -/
def maxWorkers : Nat := 0x1FFFFFFFFFFFFFFF

/-- Whether a configuration asks for a possible number of workers, at least one of which runs. -/
def admits (config : Config) : Bool := decide (max config.maxConcurrent 1 ≤ maxWorkers)

end Pool

namespace PoolError

def message : PoolError → String
  | tooManyWorkers =>
      "a semaphore may not have more than MAX_PERMITS permits (" ++ toString Pool.maxWorkers ++ ")"

end PoolError

namespace Store

def ofConfig (config : Config) (publishes : Bool) : Store where
  config := config
  pool := .serving
  publishes := publishes
  clock := 0
  documents := .empty
  analyses := #[]
  tasks := []
  tickets := .empty
  kept := .empty

/-- The empty store with a configuration that the pool admits. -/
def create (config : Config) (publishes : Bool) : Except PoolError Store :=
  if Pool.admits config then .ok (ofConfig config publishes) else .error .tooManyWorkers

def isOpen (s : Store) (uri : String) : Bool := (s.documents.get? uri).isSome

def version (s : Store) (uri : String) : Option Int := (s.documents.get? uri).map (·.version)

def text (s : Store) (uri : String) : Option String := (s.documents.get? uri).map (·.text)

end Store

end RexxService
