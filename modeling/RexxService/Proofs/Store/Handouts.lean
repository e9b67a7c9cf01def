import RexxService.Proofs.Model.Streaming
import RexxService.Proofs.Store.Lifetime

/-!
# Models that are handed out

A model that a client holds belongs to one analysis, and two models are the same one when they come
from the same analysis.

* **`HandsOut s q uri h`** — a request hands out a model of a document;
* **`HandsOut.current`** — the analysis of a model is in use at the moment the model is handed out;
* **`one_live_analysis`** — of all analyses of a document the one in use is the only one that is
  wanted; so a model is out of date exactly when an edit has taken effect since it was handed out, and
  the same model is handed out again exactly when none has.
-/

namespace RexxService

theorem Analysis.outcome_eq_ok {a : Analysis} {m : Model} :
    a.outcome = .ok m ↔ a.state = .fresh ∧ a.result = some m := by
  constructor
  · intro h
    rw [outcome] at h
    split at h
    · rename_i hfresh hresult
      rw [← Except.ok.inj h]
      exact ⟨hfresh, hresult⟩
    all_goals cases h
  · rintro ⟨hfresh, hresult⟩
    exact outcome_of_result hfresh hresult

namespace Store

/-- A request hands out a model of a document.  A query that is begun hands it out there and then if
the analysis has run, and when it is finished otherwise. -/
inductive HandsOut (s : Store) : Request → String → Handout → Prop where
  | asked {uri : String} {name : Option String} {h : Handout}
      (ho : (s.settle.2.awaitModel uri).1 = .ok h) : HandsOut s (.model uri name) uri h
  | begun {name uri : String} {h : Handout}
      (ho : (s.request uri).1 = .settled (.ok h)) : HandsOut s (.begin name uri) uri h
  | finished {name : String} {n : Nat} {h : Handout}
      (hticket : s.tickets.get? name = some (.waiting n)) (ho : s.settle.2.outcomeOf n = .ok h) :
      HandsOut s (.finish name) h.model.uri h

/-! ### The analysis of a model -/

theorem outcomeOf_eq_ok {s : Store} {n : Nat} {h : Handout} :
    s.outcomeOf n = .ok h ↔ h.analysis = n ∧
      ∃ a, s.analyses[n]? = some a ∧ a.state = .fresh ∧ a.result = some h.model := by
  rw [outcomeOf]
  cases ha : s.analyses[n]? with
  | none => simp
  | some a =>
      cases ho : a.outcome with
      | error e =>
          have hne : ¬ (a.state = .fresh ∧ a.result = some h.model) := fun hok => by
            rw [Analysis.outcome_eq_ok.2 hok] at ho
            cases ho
          simp [ho, bind, Except.bind, hne]
      | ok m =>
          obtain ⟨hfresh, hresult⟩ := Analysis.outcome_eq_ok.1 ho
          obtain ⟨number, model⟩ := h
          simp [ho, bind, Except.bind, pure, Except.pure, hfresh, hresult, eq_comm]

/-- A model that can be had belongs to the analysis in use for its document. -/
theorem current_of_outcomeOf {s : Store} (hs : s.Sound) {n : Nat} {h : Handout}
    (ho : s.outcomeOf n = .ok h) : s.currentAnalysis h.model.uri = some h.analysis := by
  obtain ⟨rfl, a, ha, hfresh, hresult⟩ := outcomeOf_eq_ok.1 ho
  have huri : h.model.uri = a.uri := by
    rw [hs.result h.analysis a h.model ha hresult, Model.parse_uri]
  rw [huri]
  exact (fresh_iff_current hs ha).1 hfresh

theorem ensure_current {s : Store} {uri : String} {doc : Document}
    (hdoc : s.documents.get? uri = some doc) :
    (s.ensure uri doc).2.currentAnalysis uri = some (s.ensure uri doc).1 := by
  rw [currentAnalysis, analysisAt, ensure_get? hdoc]
  rfl

theorem awaitModel_current {s : Store} {uri : String} {h : Handout}
    (ho : (s.awaitModel uri).1 = .ok h) :
    (s.awaitModel uri).2.currentAnalysis uri = some h.analysis := by
  cases hdoc : s.documents.get? uri with
  | none =>
      rw [awaitModel, hdoc] at ho
      cases ho
  | some doc =>
      rw [awaitModel, hdoc] at ho ⊢
      rw [(outcomeOf_eq_ok.1 ho).1]
      exact ensure_current hdoc

/-- What a query that is begun gets: nothing for a document that is not open, the outcome of the
analysis in use if that has run, and otherwise a ticket for it. -/
theorem request_of_some {s : Store} {uri : String} {doc : Document}
    (hdoc : s.documents.get? uri = some doc) :
    s.request uri = match (s.ensure uri doc).2.analyses[(s.ensure uri doc).1]?.bind (·.result) with
      | none => (.waiting (s.ensure uri doc).1, (s.ensure uri doc).2)
      | some _ => (.settled ((s.ensure uri doc).2.outcomeOf (s.ensure uri doc).1),
          (s.ensure uri doc).2) := by
  rewrite [request, hdoc]
  rfl

theorem request_current {s : Store} {uri : String} {h : Handout}
    (ho : (s.request uri).1 = .settled (.ok h)) :
    (s.request uri).2.currentAnalysis uri = some h.analysis := by
  cases hdoc : s.documents.get? uri with
  | none =>
      rw [request, hdoc] at ho
      cases ho
  | some doc =>
      rw [request_of_some hdoc] at ho ⊢
      split at ho
      · cases ho
      · rename_i heq
        have hout := (outcomeOf_eq_ok.1 (Ticket.settled.inj ho)).1
        rw [hout]
        exact ensure_current hdoc

namespace HandsOut

variable {s : Store} {q : Request} {uri : String} {h : Handout}

/-- When a model is handed out, its analysis is the one in use. -/
theorem current (hs : s.Sound) (hq : s.HandsOut q uri h) :
    (s.serve q).store.currentAnalysis uri = some h.analysis := by
  cases hq with
  | @asked _ name _ ho =>
      obtain ⟨kept, hframe⟩ := keepOutcome_frame (s.settle.2.awaitModel uri).2 name
        (s.settle.2.awaitModel uri).1
      show ((s.settle.2.awaitModel uri).2.keepOutcome name
        (s.settle.2.awaitModel uri).1).currentAnalysis uri = _
      rw [hframe]
      exact awaitModel_current ho
  | begun ho => exact request_current ho
  | finished hticket ho => exact current_of_outcomeOf ((steady_settle s).sound hs) ho

theorem takesEffect_eq_false (hq : s.HandsOut q uri h) (other : String) :
    s.takesEffect other q = false := by
  cases hq <;> rfl

end HandsOut

/-- A query for an open document always hands out the model of its text. -/
theorem handsOut_model {s : Store} (hs : s.Sound) {uri : String} {c : Contents}
    (hc : s.contents uri = some c) (name : Option String) :
    ∃ h, s.HandsOut (.model uri name) uri h ∧ h.model = Model.parse uri c.text := by
  have hsettled : s.settle.2.contents uri = some c := by
    rw [(steady_settle s).contents, hc]
  obtain ⟨n, hn, -⟩ := awaitModel_of_some ((steady_settle s).sound hs) hsettled
  exact ⟨⟨n, _⟩, .asked hn, rfl⟩

/-! ### What becomes of a model -/

theorem freshnessOf_of_current {s : Store} (hs : s.Sound) {uri : String} {h : Handout}
    (hn : s.currentAnalysis uri = some h.analysis) : s.freshnessOf h = .fresh := by
  obtain ⟨a, ha, -, -, hfresh⟩ := analysis_of_current hs hn
  rw [freshnessOf, ha]
  exact hfresh

theorem freshnessOf_of_outdated {s : Store} {h : Handout} (hn : s.Outdated h.analysis) :
    s.freshnessOf h = .stale := by
  obtain ⟨a, ha, hstale⟩ := hn
  rw [freshnessOf, ha]
  exact hstale

/-- A model whose analysis is in use is out of date later on exactly if an edit has taken effect. -/
theorem stale_after_iff {s : Store} (hs : s.Sound) {uri : String} {h : Handout}
    (hn : s.currentAnalysis uri = some h.analysis) (qs : List Request) :
    (s.after qs).freshnessOf h = .stale ↔ s.touched uri qs = true := by
  cases ht : s.touched uri qs with
  | true => simp [freshnessOf_of_outdated (outdated_after hs hn ht)]
  | false => simp [freshnessOf_of_current (sound_after hs qs) (current_after hn ht)]

/-- Later on, the same model is handed out exactly if no edit has taken effect. -/
theorem same_after_iff {s : Store} (hs : s.Sound) {uri : String} {h : Handout}
    (hn : s.currentAnalysis uri = some h.analysis) {qs : List Request} {q : Request} {k : Handout}
    (hq : (s.after qs).HandsOut q uri k) :
    k.analysis = h.analysis ↔ s.touched uri qs = false := by
  have hk := hq.current (sound_after hs qs)
  constructor
  · intro heq
    -- A model that was out of date before the request would be out of date after it.
    have hfresh := freshnessOf_of_current (sound_serve (sound_after hs qs) q) hk
    rw [Bool.eq_false_iff]
    intro ht
    have hstale := freshnessOf_of_outdated (h := k)
      (heq ▸ (outdated_after hs hn ht).of_lasts (lasts_serve _ q))
    rw [hfresh] at hstale
    cases hstale
  · intro ht
    have hstill := (spares_serve (hq.takesEffect_eq_false uri)).current _ (current_after hn ht)
    exact Option.some.inj (hk.symm.trans hstill)

/-- **At most one live analysis per document.**  At any moment of any session, an analysis is wanted
exactly if it is in use for its document, it is then an analysis of the document's current text, and
no analysis that was ever started is lost.  From the moment a model is handed out it is fresh until
the document is opened again, changed or closed while open, and stale from then on; every edit of the
document after that moment counts.  The document's next model is the same one exactly if no edit has
taken effect in between. -/
theorem one_live_analysis {config : Config} {publishes : Bool} {s : Store}
    (hcreate : create config publishes = .ok s) (qs : List Request) :
    (∀ (n : Nat) (a : Analysis), (s.after qs).analyses[n]? = some a →
      (a.state = .fresh ↔ (s.after qs).currentAnalysis a.uri = some n)) ∧
    (∀ (uri : String) (n : Nat), (s.after qs).currentAnalysis uri = some n →
      ∃ a, (s.after qs).analyses[n]? = some a ∧ a.uri = uri ∧ (s.after qs).text uri = some a.text) ∧
    (∀ later : List Request, Lasts (s.after qs).analyses (s.after (qs ++ later)).analyses) ∧
    ∀ (q : Request) (uri : String) (h : Handout), (s.after qs).HandsOut q uri h →
      ∀ between : List Request,
        let handed := ((s.after qs).serve q).store
        ((handed.after between).freshnessOf h = .stale ↔ handed.touched uri between = true) ∧
          (handed.touched uri between = between.any (Request.edits uri)) ∧
          ∀ (q' : Request) (h' : Handout), (handed.after between).HandsOut q' uri h' →
            (h'.analysis = h.analysis ↔ handed.touched uri between = false) := by
  have hs := sound_after (follows_of_create hcreate).sound qs
  refine ⟨fun n a ha => fresh_iff_current hs ha, ?_, ?_, ?_⟩
  · intro uri n hn
    obtain ⟨a, ha, huri, htext, -⟩ := analysis_of_current hs hn
    exact ⟨a, ha, huri, htext⟩
  · intro later
    rw [after_append]
    exact lasts_after _ later
  · intro q uri h hq between
    have hn := hq.current hs
    have hs' := sound_serve hs q
    refine ⟨stale_after_iff hs' hn between, ?_, fun q' h' hq' => same_after_iff hs' hn hq'⟩
    exact touched_of_isOpen hs' (isOpen_of_current hn) between

/-- A document is changed, asked for, closed and reopened with the same version and text: the models
of the two queries are different, and the first is out of date. -/
theorem one_live_analysis_reopened :
    let start := (ofConfig .standard true).after [.opened "a" 1 "x", .changed "a" 2 "y"]
    let handed := (start.serve (.model "a" none)).store
    let later := handed.after [.changed "b" 1 "z", .closed "a", .opened "a" 2 "y"]
    create .standard true = .ok (ofConfig .standard true) ∧
      ∃ h k : Handout, start.HandsOut (.model "a" none) "a" h ∧ h.model = Model.parse "a" "y" ∧
        later.HandsOut (.model "a" none) "a" k ∧ k.model = Model.parse "a" "y" ∧
        later.freshnessOf h = .stale ∧ k.analysis ≠ h.analysis := by
  intro start handed later
  have hcreate : create .standard true = .ok (ofConfig .standard true) := rfl
  have hstart : start.Sound := sound_after (follows_of_create hcreate).sound _
  have hlater : later.Sound := sound_after (sound_serve hstart _) _
  have hc : start.contents "a" = some ⟨2, "y"⟩ := rfl
  have hc' : later.contents "a" = some ⟨2, "y"⟩ := rfl
  obtain ⟨h, hh, hmodel⟩ := handsOut_model hstart hc none
  obtain ⟨k, hk, hmodel'⟩ := handsOut_model hlater hc' none
  obtain ⟨hstale, -, hsame⟩ := (one_live_analysis hcreate _).2.2.2 _ _ h hh
    [.changed "b" 1 "z", .closed "a", .opened "a" 2 "y"]
  refine ⟨hcreate, h, k, hh, hmodel, hk, hmodel', hstale.2 rfl, ?_⟩
  intro heq
  have hfalse := (hsame _ k hk).1 heq
  cases hfalse

end Store

end RexxService
