import Mathlib.Data.List.Forall2
import RexxService.Proofs.Store.Edits

/-!
# A store without caches

A `Reference` keeps the contents of the open documents and a configuration, and nothing else: it has
no analyses, no tasks, no clock and no tickets.  It answers a question about a document by parsing its
text there and then.

* **`Store.Follows`** relates a store to a reference: the store is sound, and the two agree on the
  contents of every document and on the configuration;
* **`follows_serve`**, **`answer_serve`** — one request keeps the relation, and is answered as the
  reference answers it;
* **`run_meets_reference`** — so is every request of every session, and what other documents,
  begun queries, tasks and settings do meanwhile cannot be told from the answers about a document.
-/

namespace RexxService

/-! ### Fresh questions are not given up -/

namespace Failure

theorem ofCount_ne_cancelled {α : Type} (x : Except Overflow α) : ofCount x ≠ .error .cancelled := by
  cases x <;> simp [ofCount]

end Failure

namespace Completion

/-- While a model is fresh, its items are found for every prompt. -/
theorem Prompt.items_fresh (q : Prompt) (m : Model) (mode : Matching) :
    ∃ items, q.items m .fresh mode = .ok items := by
  unfold items builtins
  by_cases h : q.typed.isEmpty <;> simp [h, Freshness.visit_fresh, bind, Except.bind, pure, Except.pure]

end Completion

namespace Model

theorem complete_fresh_ne_cancelled (m : Model) (p : Position) (mode : Matching) :
    m.complete .fresh p mode ≠ .error .cancelled := by
  rw [complete]
  cases ha : m.anchor p with
  | error e => simp [Failure.ofCount, bind, Except.bind]
  | ok found =>
      cases found with
      | none => simp [Failure.ofCount, bind, Except.bind, pure, Except.pure]
      | some t =>
          by_cases hc : t.kind.isComment
          · simp [Failure.ofCount, bind, Except.bind, pure, Except.pure, hc]
          · cases hp : Completion.promptAt t p with
            | error e => simp [Failure.ofCount, bind, Except.bind, hc, hp]
            | ok q =>
                obtain ⟨items, hitems⟩ := q.items_fresh m mode
                simp [Failure.ofCount, Failure.ofVisit, bind, Except.bind, hc, hp, hitems]

theorem outline_fresh_ne_cancelled (m : Model) : m.outline .fresh ≠ .error .cancelled := by
  rw [outline, Freshness.visit_fresh]
  cases hl : m.labels.mapM Outline.ofLabel <;>
    simp [Failure.ofCount, Failure.ofVisit, bind, Except.bind, pure, Except.pure, hl]

end Model

theorem AnalysisError.mapError_ne_cancelled {α : Type} {x : Except Failure α}
    (h : x ≠ .error .cancelled) : x.mapError ofFailure ≠ .error .cancelled := by
  cases x with
  | ok a => simp [Except.mapError]
  | error e =>
      cases e with
      | cancelled => exact absurd rfl h
      | overflow cause => simp [Except.mapError, ofFailure]

theorem Answer.ofExcept_ne_cancelled {α : Type} {f : α → Answer}
    (hf : ∀ a e, f a ≠ .failed e) {x : Except AnalysisError α} (h : x ≠ .error .cancelled) :
    Answer.ofExcept f x ≠ .failed .cancelled := by
  cases x with
  | ok a => exact hf a _
  | error e =>
      intro heq
      cases heq
      exact h rfl

/-! ### The reference -/

/-- The contents of the open documents, and a configuration. -/
structure Reference where
  documents : String → Option Contents
  config : Config

namespace Reference

def ofConfig (config : Config) : Reference := ⟨fun _ => none, config⟩

/-- What a request changes.  A change of a document that is not open is ignored, and so are settings
that cannot be read. -/
def step (r : Reference) : Request → Reference
  | .opened uri version text =>
      { r with documents := Function.update r.documents uri (some ⟨version, text⟩) }
  | .changed uri version text =>
      if (r.documents uri).isSome then
        { r with documents := Function.update r.documents uri (some ⟨version, text⟩) }
      else r
  | .closed uri => { r with documents := Function.update r.documents uri none }
  | .settings value =>
      match r.config.merge value with
      | .ok config => { r with config := config }
      | .error _ => r
  | _ => r

/-- Asks a question of the model of a document's text, made on the spot. -/
def query {α : Type} (r : Reference) (uri : String) (question : Model → Except Failure α) :
    Except AnalysisError α :=
  match r.documents uri with
  | none => .error (.unknownDocument uri)
  | some c => (question (Model.parse uri c.text)).mapError .ofFailure

/-- The answer to a look-up or to a question; the other requests are not answered from documents. -/
def answer (r : Reference) : Request → Option Answer
  | .isOpen uri => some (.flag (r.documents uri).isSome)
  | .version uri => some (.version ((r.documents uri).map (·.version)))
  | .text uri => some (.text ((r.documents uri).map (·.text)))
  | .config => some (.config r.config)
  | .model uri _ => some (.ofExcept .model (r.query uri .ok))
  | .completion uri p =>
      some (.ofExcept .completion (r.query uri fun m => m.complete .fresh p r.config.matching))
  | .symbols uri => some (.ofExcept .symbols (r.query uri fun m => m.outline .fresh))
  | .diagnostics uri =>
      some (.ofExcept .diagnostics (r.query uri fun m => Failure.ofCount m.diagnostics))
  | _ => none

def run (r : Reference) : List Request → List (Option Answer)
  | [] => []
  | q :: qs => r.answer q :: (r.step q).run qs

def after (r : Reference) (qs : List Request) : Reference := qs.foldl step r

theorem query_ne_cancelled {α : Type} (r : Reference) (uri : String)
    {question : Model → Except Failure α} (h : ∀ m, question m ≠ .error .cancelled) :
    r.query uri question ≠ .error .cancelled := by
  rw [query]
  cases r.documents uri with
  | none => simp
  | some c => exact AnalysisError.mapError_ne_cancelled (h _)

end Reference

/-- The answer that a reference expects never says that the question was given up. -/
theorem Reference.answer_ne_cancelled (r : Reference) (q : Request) (a : Answer)
    (h : r.answer q = some a) : a ≠ .failed .cancelled := by
  cases q with
  | isOpen uri | version uri | text uri | config =>
      cases h
      simp
  | model uri name =>
      cases h
      exact Answer.ofExcept_ne_cancelled (by simp) (r.query_ne_cancelled uri (by simp))
  | completion uri p =>
      cases h
      exact Answer.ofExcept_ne_cancelled (by simp)
        (r.query_ne_cancelled uri fun m => m.complete_fresh_ne_cancelled p _)
  | symbols uri =>
      cases h
      exact Answer.ofExcept_ne_cancelled (by simp)
        (r.query_ne_cancelled uri fun m => m.outline_fresh_ne_cancelled)
  | diagnostics uri =>
      cases h
      exact Answer.ofExcept_ne_cancelled (by simp)
        (r.query_ne_cancelled uri fun m => Failure.ofCount_ne_cancelled _)
  | _ => cases h

/-! ### A store follows a reference -/

/-- A reply gives the answer that is expected, if one is, and that answer is not that the question was
given up. -/
def Reply.Meets (reply : Reply) (expected : Option Answer) : Prop :=
  ∀ a, expected = some a → reply.answer = a ∧ a ≠ .failed .cancelled

namespace Store

/-- The store is sound, and shows the documents and the configuration of the reference. -/
structure Follows (s : Store) (r : Reference) : Prop where
  sound : s.Sound
  config : s.config = r.config
  contents : s.contents = r.documents

theorem follows_ofConfig (config : Config) (publishes : Bool) :
    (ofConfig config publishes).Follows (Reference.ofConfig config) :=
  ⟨sound_ofConfig config publishes, rfl, rfl⟩

variable {s : Store} {r : Reference}

/-- Background work is nothing to a reference. -/
theorem Follows.of_steady {s' : Store} (h : s.Follows r) (hs : Steady s s') : s'.Follows r :=
  ⟨hs.sound h.sound, hs.config.trans h.config, hs.contents.trans h.contents⟩

/-- A question is answered as the reference answers it. -/
theorem Follows.ask_eq {α : Type} (h : s.Follows r) (uri : String)
    (question : Model → Freshness → Except Failure α) :
    (s.ask uri question).1 = r.query uri fun m => question m .fresh := by
  rw [ask_of_sound h.sound, h.contents]
  rfl

/-- A model is the model of the text that the reference has. -/
theorem Follows.awaitModel_eq (h : s.Follows r) (uri : String) :
    Answer.ofOutcome (s.awaitModel uri).1 = .ofExcept .model (r.query uri .ok) := by
  rw [Reference.query]
  cases hc : s.contents uri with
  | none =>
      rw [awaitModel_of_none hc, ← h.contents, hc]
      rfl
  | some c =>
      obtain ⟨n, hn, -⟩ := awaitModel_of_some h.sound hc
      rw [hn, ← h.contents, hc]
      rfl

theorem keepOutcome_frame (s : Store) (name : Option String)
    (outcome : Except AnalysisError Handout) :
    ∃ kept, s.keepOutcome name outcome = { s with kept := kept } := by
  unfold keepOutcome
  split
  · exact ⟨_, rfl⟩
  · exact ⟨s.kept, rfl⟩

theorem steady_keepOutcome (s : Store) (name : Option String)
    (outcome : Except AnalysisError Handout) : Steady s (s.keepOutcome name outcome) := by
  obtain ⟨kept, hframe⟩ := keepOutcome_frame s name outcome
  rw [hframe]
  exact ⟨rfl, rfl, id⟩

/-- New settings are taken over by both sides, or refused by both. -/
theorem Follows.applySettings (h : s.Follows r) (value : Json) :
    (s.applySettings value).2.Follows (r.step (.settings value)) := by
  cases hm : r.config.merge value with
  | error e =>
      have hs : s.applySettings value = (.error (.settings e), s) := by
        rw [Store.applySettings, h.config, hm]
      have hr : r.step (.settings value) = r := by
        simp only [Reference.step, hm]
      rw [hs, hr]
      exact h
  | ok config =>
      have hs : s.applySettings value = s.reconfigure config := by
        rw [Store.applySettings, h.config, hm]
      have hr : r.step (.settings value) = { r with config := config } := by
        simp only [Reference.step, hm]
      obtain ⟨pool, hpool⟩ := reconfigure_eq s config
      rw [hs, hr, hpool]
      exact ⟨h.sound, rfl, h.contents⟩

/-- One request keeps the relation. -/
theorem follows_serve (h : s.Follows r) (q : Request) : (s.serve q).store.Follows (r.step q) := by
  cases q with
  | opened uri version text =>
      refine ⟨openDocument_sound h.sound uri version text, ?_, ?_⟩
      · exact (openDocument_config s uri version text).trans h.config
      · exact (openDocument_contents s uri version text).trans (by rw [h.contents]; rfl)
  | changed uri version text =>
      have hsound := changeDocument_sound h.sound uri version text
      have hconfig := (changeDocument_config s uri version text).trans h.config
      have hcontents := changeDocument_contents s uri version text
      rw [h.contents] at hcontents
      by_cases hopen : (r.documents uri).isSome
      · have hr : r.step (.changed uri version text) =
            { r with documents := Function.update r.documents uri (some ⟨version, text⟩) } :=
          if_pos hopen
        rw [if_pos hopen] at hcontents
        rw [hr]
        exact ⟨hsound, hconfig, hcontents⟩
      · have hr : r.step (.changed uri version text) = r := if_neg hopen
        rw [if_neg hopen] at hcontents
        rw [hr]
        exact ⟨hsound, hconfig, hcontents⟩
  | closed uri =>
      refine ⟨closeDocument_sound h.sound uri, ?_, ?_⟩
      · exact (closeDocument_config s uri).trans h.config
      · exact (closeDocument_contents s uri).trans (by rw [h.contents]; rfl)
  | settings value => exact h.applySettings value
  | begin name uri => exact h.of_steady ((works_request s uri).steady.trans ⟨rfl, rfl, id⟩)
  | model uri name =>
      exact h.of_steady (((steady_settle s).trans (works_awaitModel _ uri).steady).trans
        (steady_keepOutcome _ name _))
  | completion uri p => exact h.of_steady ((steady_settle s).trans (works_completion _ uri p).steady)
  | symbols uri => exact h.of_steady ((steady_settle s).trans (works_symbols _ uri).steady)
  | diagnostics uri => exact h.of_steady ((steady_settle s).trans (works_diagnostics _ uri).steady)
  | finish name => exact h.of_steady (steady_settle s)
  | advance ms => exact h.of_steady (steady_advance s ms)
  | _ => exact h

/-- One request is answered as the reference answers it. -/
theorem answer_serve (h : s.Follows r) (q : Request) (a : Answer) (ha : r.answer q = some a) :
    (s.serve q).answer = a := by
  have hsettled := h.of_steady (steady_settle s)
  cases q with
  | isOpen uri =>
      cases ha
      show Answer.flag (s.isOpen uri) = _
      rw [isOpen_eq, h.contents]
  | version uri =>
      cases ha
      rw [← h.contents]
      show Answer.version ((s.documents.get? uri).map _) = .version (((s.documents.get? uri).map _).map _)
      rw [Option.map_map]
      rfl
  | text uri =>
      cases ha
      rw [← h.contents]
      show Answer.text ((s.documents.get? uri).map _) = .text (((s.documents.get? uri).map _).map _)
      rw [Option.map_map]
      rfl
  | config =>
      cases ha
      rw [← h.config]
      rfl
  | model uri name =>
      cases ha
      exact hsettled.awaitModel_eq uri
  | completion uri p =>
      cases ha
      show Answer.ofExcept .completion (s.settle.2.completion uri p).1 = _
      rw [Store.completion, hsettled.ask_eq, hsettled.config]
  | symbols uri =>
      cases ha
      show Answer.ofExcept .symbols (s.settle.2.symbols uri).1 = _
      rw [Store.symbols, hsettled.ask_eq]
  | diagnostics uri =>
      cases ha
      show Answer.ofExcept .diagnostics (s.settle.2.diagnostics uri).1 = _
      rw [Store.diagnostics, hsettled.ask_eq]
  | _ => cases ha

def after (s : Store) (qs : List Request) : Store := qs.foldl (fun s q => (s.serve q).store) s

/-- A whole session keeps the relation. -/
theorem follows_after (h : s.Follows r) (qs : List Request) : (s.after qs).Follows (r.after qs) := by
  induction qs generalizing s r with
  | nil => exact h
  | cons q qs ih => exact ih (follows_serve h q)

/-- A whole session is answered as the reference answers it. -/
theorem meets_run (h : s.Follows r) (qs : List Request) :
    List.Forall₂ Reply.Meets (s.run qs) (r.run qs) := by
  induction qs generalizing s r with
  | nil => exact .nil
  | cons q qs ih =>
      refine .cons ?_ (ih (follows_serve h q))
      intro a ha
      exact ⟨answer_serve h q a ha, r.answer_ne_cancelled q a ha⟩

end Store

/-! ### What the answers about a document depend on -/

namespace Request

/-- Whether a request opens, changes or closes the document at an address. -/
def edits (uri : String) : Request → Bool
  | .opened u _ _ | .changed u _ _ | .closed u => u == uri
  | _ => false

def asks (uri : String) : Request → Bool
  | .isOpen u | .version u | .text u | .model u _ | .completion u _ | .symbols u | .diagnostics u =>
      u == uri
  | _ => false

end Request

namespace Reference

/-- A request that does not edit a document leaves it alone. -/
theorem step_documents_of_not_edits (r : Reference) {uri : String} {q : Request}
    (h : q.edits uri = false) : (r.step q).documents uri = r.documents uri := by
  cases q with
  | opened u version text | closed u =>
      have hne : uri ≠ u := by
        rintro rfl
        simp [Request.edits] at h
      exact Function.update_of_ne hne _ _
  | changed u version text =>
      have hne : uri ≠ u := by
        rintro rfl
        simp [Request.edits] at h
      simp only [step]
      split
      · exact Function.update_of_ne hne _ _
      · rfl
  | settings value =>
      simp only [step]
      split <;> rfl
  | _ => rfl

/-- An edit of a document does not depend on anything else. -/
theorem step_documents_congr {r r' : Reference} {uri : String} {q : Request}
    (hq : q.edits uri = true) (h : r.documents uri = r'.documents uri) :
    (r.step q).documents uri = (r'.step q).documents uri := by
  cases q with
  | opened u version text | closed u =>
      obtain rfl := eq_of_beq hq
      simp only [step, Function.update_self]
  | changed u version text =>
      obtain rfl := eq_of_beq hq
      simp only [step, h]
      split
      · simp only [Function.update_self]
      · exact h
  | _ => cases hq

/-- A document is what its own edits have made of it. -/
theorem after_documents_filter {r r' : Reference} {uri : String}
    (h : r.documents uri = r'.documents uri) (qs : List Request) :
    (r.after qs).documents uri = (r'.after (qs.filter (Request.edits uri))).documents uri := by
  induction qs generalizing r r' with
  | nil => exact h
  | cons q qs ih =>
      by_cases hq : q.edits uri = true
      · rw [List.filter_cons_of_pos hq]
        exact ih (step_documents_congr hq h)
      · rw [List.filter_cons_of_neg hq]
        exact ih ((r.step_documents_of_not_edits (by simpa using hq)).trans h)

/-- An answer about a document follows from that document and the way of matching names. -/
theorem answer_congr {r r' : Reference} {uri : String} {q : Request} (hq : q.asks uri = true)
    (hdoc : r.documents uri = r'.documents uri) (hmode : r.config.matching = r'.config.matching) :
    ∃ a, r.answer q = some a ∧ r'.answer q = some a := by
  have hquery : ∀ {α : Type} (question : Model → Except Failure α),
      r.query uri question = r'.query uri question := by
    intro α question
    simp only [query, hdoc]
  cases q with
  | isOpen u | version u | text u =>
      obtain rfl := eq_of_beq hq
      exact ⟨_, rfl, by simp only [answer, hdoc]⟩
  | model u name | symbols u | diagnostics u =>
      obtain rfl := eq_of_beq hq
      exact ⟨_, rfl, by simp only [answer, hquery]⟩
  | completion u p =>
      obtain rfl := eq_of_beq hq
      exact ⟨_, rfl, by simp only [answer, hquery, hmode]⟩
  | _ => cases hq

end Reference

namespace Store

/-- Two stores that have seen the same edits of a document, and match names in the same way, give the
same answers about it. -/
theorem answer_eq_of_edits {s s' : Store} {config config' : Config}
    (h : s.Follows (.ofConfig config)) (h' : s'.Follows (.ofConfig config'))
    {qs qs' : List Request} {uri : String} {q : Request} (hq : q.asks uri = true)
    (hedits : qs'.filter (Request.edits uri) = qs.filter (Request.edits uri))
    (hmode : (s'.after qs').config.matching = (s.after qs).config.matching) :
    ((s'.after qs').serve q).answer = ((s.after qs).serve q).answer := by
  have hf := follows_after h qs
  have hf' := follows_after h' qs'
  have hdoc : (Reference.after (.ofConfig config') qs').documents uri
      = (Reference.after (.ofConfig config) qs).documents uri := by
    have hqs := Reference.after_documents_filter
      (show (Reference.ofConfig config).documents uri = (Reference.ofConfig config').documents uri
        from rfl) qs
    have hqs' := Reference.after_documents_filter
      (show (Reference.ofConfig config').documents uri = (Reference.ofConfig config').documents uri
        from rfl) qs'
    rw [hqs, hqs', hedits]
  rw [hf.config, hf'.config] at hmode
  obtain ⟨a, ha', ha⟩ := Reference.answer_congr hq hdoc hmode
  rw [answer_serve hf' q a ha', answer_serve hf q a ha]

/-- Every store that can be made follows the reference with the same configuration. -/
theorem follows_of_create {config : Config} {publishes : Bool} {s : Store}
    (h : create config publishes = .ok s) : s.Follows (.ofConfig config) := by
  rw [create] at h
  split at h
  · cases h
    exact follows_ofConfig config publishes
  · cases h

/-- **A store cannot be told from a reference.**  In every session with a store, whatever its
configuration and whether it publishes or not, every look-up and every question is answered as the
reference with the same configuration answers it, and no question is given up.  The answers about a
document are the same in any two sessions that agree on the edits of that document and, at the moment
of the question, on how names are matched. -/
theorem run_meets_reference {config : Config} {publishes : Bool} {s : Store}
    (h : create config publishes = .ok s) (qs : List Request) :
    List.Forall₂ Reply.Meets (s.run qs) ((Reference.ofConfig config).run qs) ∧
      ∀ (config' : Config) (publishes' : Bool) (s' : Store) (qs' : List Request) (uri : String)
        (q : Request), create config' publishes' = .ok s' → q.asks uri = true →
        qs'.filter (Request.edits uri) = qs.filter (Request.edits uri) →
        (s'.after qs').config.matching = (s.after qs).config.matching →
        ((s'.after qs').serve q).answer = ((s.after qs).serve q).answer := by
  have hf := follows_of_create h
  refine ⟨meets_run hf qs, ?_⟩
  intro config' publishes' s' qs' uri q h' hq hedits hmode
  exact answer_eq_of_edits hf (follows_of_create h') hq hedits hmode

/-- A session in which the analysis of a document is started by a change, put out of date and started
again by a question, beside one that sees the last edit only. -/
theorem run_meets_reference_edited :
    create .standard true = .ok (ofConfig .standard true) ∧
      List.Forall₂ Reply.Meets
        ((ofConfig .standard true).run [.opened "a" 1 "x = 1", .begin "q" "a", .changed "a" 1 "y:",
          .opened "b" 1 "z = 1", .settings (.array []), .advance 300, .symbols "a"])
        ((Reference.ofConfig .standard).run [.opened "a" 1 "x = 1", .begin "q" "a",
          .changed "a" 1 "y:", .opened "b" 1 "z = 1", .settings (.array []), .advance 300,
          .symbols "a"]) ∧
      (((ofConfig .standard false).after [.opened "a" 1 "x = 1", .changed "a" 1 "y:"]).serve
          (.completion "a" ⟨0, 1⟩)).answer =
        (((ofConfig .standard true).after [.opened "a" 1 "x = 1", .begin "q" "a",
          .changed "a" 1 "y:", .opened "b" 1 "z = 1", .settings (.array []), .advance 300,
          .symbols "a"]).serve (.completion "a" ⟨0, 1⟩)).answer := by
  have hconfig : ∀ publishes qs, ((ofConfig .standard publishes).after qs).config
      = ((Reference.ofConfig .standard).after qs).config :=
    fun publishes qs => (follows_after (follows_ofConfig .standard publishes) qs).config
  have hcreate : create .standard true = .ok (ofConfig .standard true) := rfl
  refine ⟨hcreate, (run_meets_reference hcreate _).1,
    (run_meets_reference hcreate _).2 .standard false _ _ "a" _ rfl rfl rfl ?_⟩
  rw [hconfig, hconfig]
  rfl

end Store

end RexxService
