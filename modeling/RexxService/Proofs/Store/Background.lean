import RexxService.Proofs.Store.Consistency

/-!
# Background work of a store

Analyses are started and run, and tasks publish diagnostics, while documents stay as they are.

* **`Sound`** — the documents and the analyses of a store are consistent;
* **`Steady s s'`** — a store got from `s` to `s'` without a change of what a client has written:
  the contents of its documents and its configuration are the same, and it is still sound;
* **`Works s s'`** — a store got from `s` to `s'` by starting and running analyses;
* **`awaitModel_of_some`** — in a sound store, waiting for the model of an open document always gives
  the model of its current text, and that model is fresh.

Each operation in the background is shown once to be made of the moves of `Works`.  A law about the
background is then proved by induction over these moves, as `Works.frame` and `Works.steady` are.
-/

namespace RexxService

/-- What a client has written: the version and the text of a document. -/
structure Contents where
  version : Int
  text : String
deriving DecidableEq, Repr

def Document.contents (doc : Document) : Contents := ⟨doc.version, doc.text⟩

namespace Table

variable {α : Type}

theorem get?_put_eq (t : Table α) (key : String) (value : α) :
    (t.put key value).get? = Function.update t.get? key (some value) := by
  funext other
  rw [get?_put, Function.update_apply]

theorem get?_erase_eq (t : Table α) (key : String) :
    (t.erase key).get? = Function.update t.get? key none := by
  funext other
  rw [get?_erase, Function.update_apply]

end Table

namespace Store

def contents (s : Store) (uri : String) : Option Contents :=
  (s.documents.get? uri).map Document.contents

theorem version_eq (s : Store) (uri : String) : s.version uri = (s.contents uri).map (·.version) := by
  rw [contents, Option.map_map]
  rfl

/-- The documents of a store and its analyses are consistent. -/
def Sound (s : Store) : Prop := Consistent s.documents.get? s.analyses

/-- A new store is sound. -/
theorem sound_ofConfig (config : Config) (publishes : Bool) : (ofConfig config publishes).Sound := by
  refine ⟨?_, ?_, ?_⟩
  · intro uri doc n hdoc
    cases hdoc
  · intro n a ha
    cases ha
  · intro n a m ha
    cases ha

/-- The contents of a store in which a document has been put. -/
theorem contents_put (s : Store) (uri : String) (doc : Document) :
    ({ s with documents := s.documents.put uri doc } : Store).contents
      = Function.update s.contents uri (some doc.contents) := by
  funext other
  show ((s.documents.put uri doc).get? other).map _ = _
  rw [Table.get?_put, Function.update_apply]
  split <;> rfl

/-- A store got from `s` to `s'` by work that no client has asked to see. -/
structure Steady (s s' : Store) : Prop where
  config : s'.config = s.config
  contents : s'.contents = s.contents
  sound : s.Sound → s'.Sound

namespace Steady

theorem refl (s : Store) : Steady s s := ⟨rfl, rfl, id⟩

theorem trans {s s' s'' : Store} (h : Steady s s') (h' : Steady s' s'') : Steady s s'' :=
  ⟨h'.config.trans h.config, h'.contents.trans h.contents, fun hs => h'.sound (h.sound hs)⟩

end Steady

/-! ### Work -/

/-- A store got from one state to another by starting and running analyses. -/
inductive Works : Store → Store → Prop where
  | rest (s : Store) : Works s s
  | ran {s : Store} {analyses : Array Analysis}
      (h : ∀ n : Nat, analyses[n]? = s.analyses[n]? ∨ analyses[n]? = s.analyses[n]?.map Analysis.run) :
      Works s { s with analyses := analyses }
  | started {s : Store} {uri : String} {doc : Document}
      (hdoc : s.documents.get? uri = some doc) (hidle : doc.analysis = none) :
      Works s (s.ensure uri doc).2
  | trans {s s' s'' : Store} (h : Works s s') (h' : Works s' s'') : Works s s''

/-- Starting the analysis of a document shows in its number only. -/
theorem steady_ensure {s : Store} {uri : String} {doc : Document}
    (hdoc : s.documents.get? uri = some doc) : Steady s (s.ensure uri doc).2 := by
  rw [ensure.eq_def]
  split
  · exact Steady.refl s
  · rename_i hnone
    refine ⟨rfl, (contents_put _ uri _).trans ?_, ?_⟩
    · have hsame : some doc.contents = s.contents uri := by
        rw [contents, hdoc]
        rfl
      show Function.update s.contents uri (some doc.contents) = s.contents
      rw [hsame, Function.update_eq_self]
    · intro hs
      have hidle : analysisAt s.documents.get? uri = none := by
        rw [analysisAt, hdoc]
        exact hnone
      show Consistent (s.documents.put uri _).get? _
      rw [Table.get?_put_eq]
      exact Consistent.placeStarted hs hidle doc.version doc.text

namespace Works

variable {s s' : Store}

/-- Work shows in the documents and in the analyses only. -/
theorem frame (h : Works s s') :
    ∃ documents analyses, s' = { s with documents := documents, analyses := analyses } := by
  induction h with
  | rest s => exact ⟨s.documents, s.analyses, rfl⟩
  | ran h => exact ⟨_, _, rfl⟩
  | started hdoc hidle =>
      rw [ensure.eq_def, hidle]
      exact ⟨_, _, rfl⟩
  | trans _ _ ih ih' =>
      obtain ⟨documents, analyses, rfl⟩ := ih
      obtain ⟨documents', analyses', rfl⟩ := ih'
      exact ⟨documents', analyses', rfl⟩

/-- Work does not show in what a client has written. -/
theorem steady (h : Works s s') : Steady s s' := by
  induction h with
  | rest s => exact Steady.refl s
  | ran h => exact ⟨rfl, rfl, fun hs => Consistent.of_run hs h⟩
  | started hdoc _ => exact steady_ensure hdoc
  | trans _ _ ih ih' => exact ih.trans ih'

end Works

theorem works_ensure {s : Store} {uri : String} {doc : Document}
    (hdoc : s.documents.get? uri = some doc) : Works s (s.ensure uri doc).2 := by
  cases hn : doc.analysis with
  | none => exact .started hdoc hn
  | some n =>
      rw [ensure.eq_def, hn]
      exact .rest s

theorem works_runOne (s : Store) (n : Nat) : Works s (s.runOne n) := by
  refine .ran fun i => ?_
  rw [Array.getElem?_modify]
  split
  · exact Or.inr rfl
  · exact Or.inl rfl

theorem works_runAll (s : Store) : Works s s.runAll := .ran fun _ => Or.inr Array.getElem?_map

theorem works_awaitModel (s : Store) (uri : String) : Works s (s.awaitModel uri).2 := by
  rw [awaitModel]
  split
  · exact .rest s
  · rename_i doc hdoc
    exact (works_ensure hdoc).trans (works_runOne _ _)

theorem works_ask {α : Type} (s : Store) (uri : String)
    (question : Model → Freshness → Except Failure α) : Works s (s.ask uri question).2 := by
  have h := works_awaitModel s uri
  rw [ask]
  cases ho : (s.awaitModel uri).1 <;> simpa only [ho] using h

theorem works_completion (s : Store) (uri : String) (p : Position) :
    Works s (s.completion uri p).2 := works_ask s uri _

theorem works_symbols (s : Store) (uri : String) : Works s (s.symbols uri).2 := works_ask s uri _

theorem works_diagnostics (s : Store) (uri : String) : Works s (s.diagnostics uri).2 :=
  works_ask s uri _

theorem works_request (s : Store) (uri : String) : Works s (s.request uri).2 := by
  rw [request]
  split
  · exact .rest s
  · rename_i doc hdoc
    have h := works_ensure hdoc
    cases hr : (s.ensure uri doc).2.analyses[(s.ensure uri doc).1]?.bind (·.result) <;>
      simpa only [hr] using h

/-- Waiting for a model leaves all versions as they are, so the second look at the version decides nothing. -/
theorem runTask_published_of_current {s : Store} {t : Task} (h : s.version t.uri = some t.version) :
    (s.runTask t).1 = match (s.awaitModel t.uri).1 with
      | .error _ => []
      | .ok h => publicationOf t h.model := by
  have hversion : (s.awaitModel t.uri).2.version t.uri = some t.version := by
    rw [version_eq, (works_awaitModel s t.uri).steady.contents, ← version_eq, h]
  rw [runTask, if_pos h]
  cases houtcome : (s.awaitModel t.uri).1 with
  | error e => simp only [houtcome]
  | ok handout => simp only [houtcome, if_pos hversion]

theorem works_runTask (s : Store) (t : Task) : Works s (s.runTask t).2 := by
  rw [runTask]
  split
  · exact works_awaitModel s t.uri
  · exact .rest s

/-- Tasks run one after the other, each from where the one before left the store. -/
theorem works_runTasks (s : Store) (ts : List Task) : Works s (s.runTasks ts).2 := by
  induction ts generalizing s with
  | nil => exact .rest s
  | cons t ts ih => exact (works_runTask s t).trans (ih _)

/-- Settling takes the tasks that are due off the list, lets every analysis run, and then runs these
tasks. -/
theorem settle_eq (s : Store) :
    s.settle = runTasks (runAll { s with tasks := s.tasks.filter fun t => !decide (t.due ≤ s.clock) })
      (s.tasks.filter fun t => decide (t.due ≤ s.clock)) := by
  show runTasks { s.runAll with tasks := (s.tasks.partition fun t => decide (t.due ≤ s.clock)).2 }
    (s.tasks.partition fun t => decide (t.due ≤ s.clock)).1 = _
  rw [List.partition_eq_filter_filter]
  rfl

theorem works_settle (s : Store) :
    Works { s with tasks := s.tasks.filter fun t => !decide (t.due ≤ s.clock) } s.settle.2 := by
  rw [settle_eq]
  exact (works_runAll _).trans (works_runTasks _ _)

theorem settle_frame (s : Store) :
    ∃ documents analyses, s.settle.2 = { s with
      documents := documents
      analyses := analyses
      tasks := s.tasks.filter fun t => !decide (t.due ≤ s.clock) } := (works_settle s).frame

theorem settle_publishes (s : Store) : s.settle.2.publishes = s.publishes := by
  obtain ⟨documents, analyses, hframe⟩ := settle_frame s
  rw [hframe]

theorem settle_tickets (s : Store) : s.settle.2.tickets = s.tickets := by
  obtain ⟨documents, analyses, hframe⟩ := settle_frame s
  rw [hframe]

theorem steady_settle (s : Store) : Steady s s.settle.2 := by
  have hworks := (works_settle s).steady
  exact ⟨hworks.config, hworks.contents, hworks.sound⟩

theorem steady_advance (s : Store) (ms : Nat) : Steady s (s.advance ms).2 := by
  have hclock : Steady s.settle.2 { s.settle.2 with clock := s.settle.2.clock + ms } :=
    ⟨rfl, rfl, id⟩
  exact ((steady_settle s).trans hclock).trans (steady_settle _)

/-! ### Waiting for a model -/

/-- Afterwards the document points at the analysis. -/
theorem ensure_get? {s : Store} {uri : String} {doc : Document}
    (hdoc : s.documents.get? uri = some doc) :
    (s.ensure uri doc).2.documents.get? uri
      = some { doc with analysis := some (s.ensure uri doc).1 } := by
  rw [ensure]
  split
  · rename_i n hn
    rw [← hn]
    exact hdoc
  · show (s.documents.put uri _).get? uri = _
    rw [Table.get?_put, if_pos rfl]

/-- The analysis of an open document, once run, gives the model of the document's text. -/
theorem runOne_analysis {s : Store} (hs : s.Sound) {uri : String} {doc : Document} {n : Nat}
    (hdoc : s.documents.get? uri = some doc) (hn : doc.analysis = some n) :
    ∃ a, (s.runOne n).analyses[n]? = some a ∧ a.state = .fresh ∧
      a.result = some (Model.parse uri doc.text) := by
  obtain ⟨a, ha, huri, htext, hfresh⟩ := hs.current uri doc n hdoc hn
  refine ⟨a.run, ?_, ?_, ?_⟩
  · show (s.analyses.modify n Analysis.run)[n]? = _
    rw [Array.getElem?_modify, if_pos rfl, ha]
    rfl
  · rw [a.run_state, hfresh]
  · rw [Analysis.run_result_of_fresh hfresh fun m hm => hs.result n a m ha hm, huri, htext]

theorem awaitModel_of_none {s : Store} {uri : String} (h : s.contents uri = none) :
    (s.awaitModel uri).1 = .error (.unknownDocument uri) := by
  have hdoc : s.documents.get? uri = none := Option.map_eq_none_iff.1 h
  rw [awaitModel, hdoc]

/-- Waiting for the model of an open document is never in vain: it gives the model of the current
text, and nothing has put that model out of date. -/
theorem awaitModel_of_some {s : Store} (hs : s.Sound) {uri : String} {c : Contents}
    (h : s.contents uri = some c) :
    ∃ n, (s.awaitModel uri).1 = .ok ⟨n, Model.parse uri c.text⟩ ∧
      ∀ m, (s.awaitModel uri).2.freshnessOf ⟨n, m⟩ = .fresh := by
  obtain ⟨doc, hdoc, rfl⟩ := Option.map_eq_some_iff.1 h
  obtain ⟨a, ha, hfresh, hresult⟩ :=
    runOne_analysis ((steady_ensure hdoc).sound hs) (ensure_get? hdoc) rfl
  refine ⟨(s.ensure uri doc).1, ?_, ?_⟩
  · rw [awaitModel, hdoc]
    show outcomeOf _ _ = _
    rw [outcomeOf, ha]
    show a.outcome >>= _ = _
    rw [Analysis.outcome_of_result hfresh hresult]
    rfl
  · intro m
    rw [awaitModel, hdoc]
    show freshnessOf _ _ = _
    rw [freshnessOf, ha]
    exact hfresh

/-- A question is asked of the model of the current text, while that model is fresh. -/
theorem ask_of_sound {α : Type} {s : Store} (hs : s.Sound) (uri : String)
    (question : Model → Freshness → Except Failure α) :
    (s.ask uri question).1 = match s.contents uri with
      | none => .error (.unknownDocument uri)
      | some c => (question (Model.parse uri c.text) .fresh).mapError .ofFailure := by
  cases hc : s.contents uri with
  | none =>
      have h := awaitModel_of_none hc
      rw [ask]
      simp only [h]
  | some c =>
      obtain ⟨n, h, hfresh⟩ := awaitModel_of_some hs hc
      rw [ask]
      simp only [h, hfresh]

end Store

end RexxService
