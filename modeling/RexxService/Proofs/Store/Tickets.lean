import RexxService.Proofs.Store.Handouts

/-!
# Queries that are begun and finished later

A query that is begun gets a ticket.  The ticket of a query that is ready holds its outcome; the
ticket of a pending query holds the number of the analysis that was in use at that moment, and its
outcome is decided by what has become of that analysis.

* **`request_cases`** — the three tickets that a query can get;
* **`tickets_after`** — nothing but another query under the same name touches a ticket;
* **`outcomeOf_after`** — settling gives an analysis its model if it is still in use;
* **`finished_outcome`** — so a pending query is given up exactly if its document was edited between
  the two moments, and else has the model of the text at the first.
-/

namespace RexxService

/-- Whether a request begins a query under a name. -/
def Request.begins (name : String) : Request → Bool
  | .begin other _ => other == name
  | _ => false

namespace Store

/-- Whether the analysis of a document's current text has run to its end. -/
def analysed (s : Store) (uri : String) : Bool :=
  ((s.currentAnalysis uri).bind fun n => s.analyses[n]?.bind (·.result)).isSome

/-- The outcome of the query that was begun under a name, once all work that is due has been done. -/
def finished (s : Store) (name : String) : Option (Except AnalysisError Handout) :=
  (s.tickets.get? name).map s.settle.2.collect

theorem serve_finish (s : Store) (name : String) :
    (s.serve (.finish name)).answer = (s.finished name).elim .unknownTicket .ofOutcome := by
  show s.settle.2.finishQuery name = _
  rw [finishQuery, finished, settle_tickets]
  cases s.tickets.get? name <;> rfl

/-! ### Tickets -/

/-- A query for a document that is not open is settled, so is one whose analysis has run, and every
other one waits for the analysis in use. -/
theorem request_cases {s : Store} (hs : s.Sound) (uri : String) :
    (s.contents uri = none ∧ (s.request uri).1 = .settled (.error (.unknownDocument uri))) ∨
    (∃ c h, s.contents uri = some c ∧ s.analysed uri = true ∧
      (s.request uri).1 = .settled (.ok h) ∧ h.model = Model.parse uri c.text) ∨
    ∃ c n, s.contents uri = some c ∧ s.analysed uri = false ∧ (s.request uri).1 = .waiting n ∧
      (s.request uri).2.currentAnalysis uri = some n := by
  cases hdoc : s.documents.get? uri with
  | none =>
      refine Or.inl ⟨?_, ?_⟩
      · rw [contents, hdoc]
        rfl
      · rw [request, hdoc]
  | some doc =>
      right
      have hc : s.contents uri = some doc.contents := by
        rw [contents, hdoc]
        rfl
      have hcurrent : s.currentAnalysis uri = doc.analysis := by
        rw [currentAnalysis, analysisAt, hdoc]
        rfl
      cases hn : doc.analysis with
      | none =>
          -- The analysis is started now, and has not run.
          refine Or.inr ⟨doc.contents, s.analyses.size, hc, ?_, ?_, ?_⟩
          · rw [analysed, hcurrent, hn]
            rfl
          · rw [request_of_some hdoc, ensure.eq_def, hn]
            simp [start]
          · have hstart := ensure_current hdoc
            rw [request_of_some hdoc]
            rw [ensure.eq_def, hn] at hstart ⊢
            simpa [start] using hstart
      | some n =>
          have hensure : s.ensure uri doc = (n, s) := by rw [ensure.eq_def, hn]
          rw [hn] at hcurrent
          obtain ⟨a, ha, huri, htext, hfresh⟩ := hs.current uri doc n hdoc hn
          cases hr : a.result with
          | none =>
              have hrequest : s.request uri = (.waiting n, s) := by
                rw [request_of_some hdoc, hensure]
                simp [ha, hr]
              refine Or.inr ⟨doc.contents, n, hc, ?_, ?_, ?_⟩
              · simp [analysed, hcurrent, ha, hr]
              · rw [hrequest]
              · rw [hrequest]
                exact hcurrent
          | some m =>
              have hout : s.outcomeOf n = .ok ⟨n, m⟩ :=
                outcomeOf_eq_ok.2 ⟨rfl, a, ha, hfresh, hr⟩
              refine Or.inl ⟨doc.contents, ⟨n, m⟩, hc, ?_, ?_, ?_⟩
              · simp [analysed, hcurrent, ha, hr]
              · rw [request_of_some hdoc, hensure]
                simp [ha, hr, hout]
              · show m = Model.parse uri doc.text
                rw [hs.result n a m ha hr, huri, htext]

/-- A ticket stays as it is until another query is begun under its name. -/
theorem tickets_serve (s : Store) {name : String} {q : Request} (h : q.begins name = false) :
    (s.serve q).store.tickets.get? name = s.tickets.get? name := by
  have hframe := (serve_frame s q).2
  cases q with
  | begin other uri =>
      have hne : name ≠ other := by
        rintro rfl
        simp [Request.begins] at h
      rw [hframe, Table.get?_put, if_neg hne]
  | _ => rw [hframe]

theorem tickets_after (s : Store) {name : String} {qs : List Request}
    (h : ∀ q ∈ qs, q.begins name = false) :
    (s.after qs).tickets.get? name = s.tickets.get? name := by
  induction qs generalizing s with
  | nil => rfl
  | cons q qs ih =>
      have hq := tickets_serve s (h q List.mem_cons_self)
      exact (ih _ fun r hr => h r (List.mem_cons_of_mem q hr)).trans hq

/-! ### The analysis behind a ticket -/

theorem outcomeOf_of_outdated {s : Store} {n : Nat} (h : s.Outdated n) :
    s.outcomeOf n = .error .cancelled := by
  obtain ⟨a, ha, hstale⟩ := h
  rw [outcomeOf, ha]
  simp only [Analysis.outcome_of_stale hstale]
  rfl

/-- Settling gives an analysis in use its model. -/
theorem settle_outcomeOf {s : Store} (hs : s.Sound) {uri : String} {c : Contents} {n : Nat}
    (hn : s.currentAnalysis uri = some n) (hc : s.contents uri = some c) :
    s.settle.2.outcomeOf n = .ok ⟨n, Model.parse uri c.text⟩ := by
  obtain ⟨a, ha, huri, htext, hfresh⟩ := analysis_of_current hs hn
  have hrun : a.run.result = some (Model.parse uri c.text) := by
    have hresult := Analysis.run_result_of_fresh hfresh fun m hm => hs.result n a m ha hm
    have hsame : s.text uri = some c.text := by
      rw [text_eq, hc]
      rfl
    rw [hresult, huri, Option.some.inj (htext.symm.trans hsame)]
  -- The tasks that run after the analyses leave the model where it is.
  have hlasts : Lasts s.runAll.analyses s.settle.2.analyses := by
    have hworks := works_runTasks
      (runAll { s with tasks := s.tasks.filter fun t => !decide (t.due ≤ s.clock) })
      (s.tasks.filter fun t => decide (t.due ≤ s.clock))
    rw [settle_eq]
    exact (hworks.spares uri).lasts
  have hran : s.runAll.analyses[n]? = some a.run := by
    show (s.analyses.map Analysis.run)[n]? = _
    rw [Array.getElem?_map, ha]
    rfl
  obtain ⟨b, hb, hab⟩ := hlasts n a.run hran
  obtain ⟨b', hb', -, -, hfresh'⟩ := analysis_of_current ((steady_settle s).sound hs)
    ((spares_settle s uri).current n hn)
  obtain rfl := Option.some.inj (hb.symm.trans hb')
  exact outcomeOf_eq_ok.2 ⟨rfl, b, hb, hfresh', hab.result _ hrun⟩

/-- What becomes of a query that waits for the analysis in use. -/
theorem outcomeOf_after {s : Store} (hs : s.Sound) {uri : String} {c : Contents} {n : Nat}
    (hn : s.currentAnalysis uri = some n) (hc : s.contents uri = some c) (qs : List Request) :
    (s.after qs).settle.2.outcomeOf n = if qs.any (Request.edits uri) then .error .cancelled
      else .ok ⟨n, Model.parse uri c.text⟩ := by
  have htouched := touched_of_isOpen hs (isOpen_of_current hn) qs
  cases hany : qs.any (Request.edits uri) with
  | true =>
      rw [hany] at htouched
      have hout := (outdated_after hs hn htouched).of_lasts (spares_settle _ uri).lasts
      exact outcomeOf_of_outdated hout
  | false =>
      rw [hany] at htouched
      have hstill : (s.after qs).contents uri = some c := by
        rw [contents_after hs fun q hq => by simpa using List.any_eq_false.1 hany q hq, hc]
      exact settle_outcomeOf (sound_after hs qs) (current_after hn htouched) hstill

/-! ### Beginning and finishing a query -/

section

variable {s : Store} (name uri : String)

theorem begin_ready_or_pending (s : Store) :
    (s.serve (.begin name uri)).answer = .ready ∨ (s.serve (.begin name uri)).answer = .pending := by
  show Answer.ofTicket (s.request uri).1 = .ready ∨ Answer.ofTicket (s.request uri).1 = .pending
  cases (s.request uri).1 with
  | settled outcome => exact Or.inl rfl
  | waiting n => exact Or.inr rfl

theorem begin_pending_iff (hs : s.Sound) :
    (s.serve (.begin name uri)).answer = .pending ↔
      s.isOpen uri = true ∧ s.analysed uri = false := by
  show Answer.ofTicket (s.request uri).1 = .pending ↔ _
  rw [isOpen_eq]
  rcases request_cases hs uri with
    ⟨hc, hr⟩ | ⟨c, h, hc, hanalysed, hr, -⟩ | ⟨c, n, hc, hanalysed, hr, -⟩
  · simp [hr, hc, Answer.ofTicket]
  · simp [hr, hc, hanalysed, Answer.ofTicket]
  · simp [hr, hc, hanalysed, Answer.ofTicket]

/-- The ticket that a query gets is the one that it is finished with. -/
theorem finished_after (s : Store) {between : List Request}
    (h : ∀ q ∈ between, q.begins name = false) :
    ((s.serve (.begin name uri)).store.after between).finished name
      = some (((s.serve (.begin name uri)).store.after between).settle.2.collect
          (s.request uri).1) := by
  have hticket : (s.serve (.begin name uri)).store.tickets.get? name = some (s.request uri).1 := by
    rw [(serve_frame s (.begin name uri)).2, Table.get?_put, if_pos rfl]
  rw [finished, tickets_after _ h, hticket]
  rfl

theorem request_of_closed (h : s.isOpen uri = false) :
    (s.request uri).1 = .settled (.error (.unknownDocument uri)) := by
  have hdoc : s.documents.get? uri = none := Option.isNone_iff_eq_none.1 (by simpa [isOpen] using h)
  rw [request, hdoc]

variable {uri} {text : String}

/-- A query that is ready has got the model of the text. -/
theorem request_of_ready (hs : s.Sound) (htext : s.text uri = some text)
    (h : (s.serve (.begin name uri)).answer = .ready) :
    ∃ k, s.HandsOut (.begin name uri) uri k ∧ k.model = Model.parse uri text ∧
      (s.request uri).1 = .settled (.ok k) := by
  have hticket : Answer.ofTicket (s.request uri).1 = .ready := h
  rw [text_eq] at htext
  rcases request_cases hs uri with ⟨hc, -⟩ | ⟨c, k, hc, -, hr, hmodel⟩ | ⟨c, n, -, -, hr, -⟩
  · rw [hc] at htext
    cases htext
  · rw [hc] at htext
    obtain rfl : c.text = text := Option.some.inj htext
    exact ⟨k, .begun hr, hmodel, hr⟩
  · rw [hr] at hticket
    cases hticket

/-- A query that is pending has the model of the text later on, unless there has been an edit. -/
theorem collect_of_pending (hs : s.Sound) (htext : s.text uri = some text)
    (h : (s.serve (.begin name uri)).answer = .pending) (between : List Request) :
    ∃ n, ((s.serve (.begin name uri)).store.after between).settle.2.collect (s.request uri).1
      = if between.any (Request.edits uri) then .error .cancelled
        else .ok ⟨n, Model.parse uri text⟩ := by
  have hticket : Answer.ofTicket (s.request uri).1 = .pending := h
  rw [text_eq] at htext
  rcases request_cases hs uri with ⟨-, hr⟩ | ⟨c, k, -, -, hr, -⟩ | ⟨c, n, hc, -, hr, hn⟩
  · rw [hr] at hticket
    cases hticket
  · rw [hr] at hticket
    cases hticket
  · rw [hc] at htext
    obtain rfl : c.text = text := Option.some.inj htext
    have hcurrent : (s.serve (.begin name uri)).store.currentAnalysis uri = some n := hn
    have hcontents : (s.serve (.begin name uri)).store.contents uri = some c :=
      (contents_serve hs rfl).trans hc
    refine ⟨n, ?_⟩
    rw [hr]
    exact outcomeOf_after (sound_serve hs _) hcurrent hcontents between

end

/-- **Outcome of a query that was begun earlier.**  A query is pending exactly if its document is open
and the analysis of its text has not run to its end.  When it is finished, with any requests in
between but another query under its name, it fails if the document was not open at the beginning; it
has the model that it had at the beginning if it was ready then; and if it was pending, it is given up
exactly if the document was opened, changed or closed in between, and else has the model of the text
at the beginning. -/
theorem finished_outcome {config : Config} {publishes : Bool} {s : Store}
    (hcreate : create config publishes = .ok s) (qs : List Request) (name uri : String)
    (between : List Request) (hbetween : ∀ q ∈ between, q.begins name = false) :
    let before := s.after qs
    let asked := before.serve (.begin name uri)
    let later := asked.store.after between
    (asked.answer = .pending ↔ before.isOpen uri = true ∧ before.analysed uri = false) ∧
      (asked.answer = .ready ∨ asked.answer = .pending) ∧
      ∃ outcome, later.finished name = some outcome ∧
        (later.serve (.finish name)).answer = .ofOutcome outcome ∧
        (before.isOpen uri = false → outcome = .error (.unknownDocument uri)) ∧
        ∀ text, before.text uri = some text →
          (asked.answer = .ready → ∃ h, before.HandsOut (.begin name uri) uri h ∧
            h.model = Model.parse uri text ∧ outcome = .ok h) ∧
          (asked.answer = .pending →
            (outcome = .error .cancelled ↔ ∃ q ∈ between, q.edits uri = true) ∧
            ((∀ q ∈ between, q.edits uri = false) →
              ∃ h, outcome = .ok h ∧ h.model = Model.parse uri text)) := by
  intro before asked later
  have hs : before.Sound := sound_after (follows_of_create hcreate).sound qs
  have hfinished := finished_after name uri before hbetween
  refine ⟨begin_pending_iff name uri hs, begin_ready_or_pending name uri before, _, hfinished, ?_, ?_,
    fun text htext => ⟨?_, ?_⟩⟩
  · rw [serve_finish, hfinished]
    rfl
  · intro hclosed
    rw [request_of_closed uri hclosed]
    rfl
  · intro hready
    obtain ⟨h, hhanded, hmodel, hr⟩ := request_of_ready name hs htext hready
    refine ⟨h, hhanded, hmodel, ?_⟩
    rw [hr]
    rfl
  · intro hpending
    obtain ⟨n, hout⟩ := collect_of_pending name hs htext hpending between
    rw [hout, ← List.any_eq_true]
    refine ⟨?_, fun hnone => ?_⟩
    · cases between.any (Request.edits uri) <;> simp
    · have hany : between.any (Request.edits uri) = false :=
        List.any_eq_false.2 fun q hq => by simp [hnone q hq]
      rw [hany]
      exact ⟨_, rfl, rfl⟩

/-- Two queries for a document that was changed and not analysed since.  The first is given up: the
analysis has run when the document is closed, and it is open again with the same version and text when
the query is finished.  The second has the model. -/
theorem finished_outcome_reopened :
    let before := (ofConfig .standard false).after [.opened "a" 1 "x", .changed "a" 2 "y"]
    let asked := before.serve (.begin "q" "a")
    create .standard false = .ok (ofConfig .standard false) ∧ asked.answer = .pending ∧
      ((asked.store.after [.symbols "a", .closed "a", .opened "a" 2 "y"]).serve
        (.finish "q")).answer = .failed .cancelled ∧
      ((asked.store.after [.closed "b", .begin "r" "a", .changed "b" 3 "z"]).serve
        (.finish "q")).answer = .model (Model.parse "a" "y") := by
  intro before asked
  have hcreate : create .standard false = .ok (ofConfig .standard false) := rfl
  have hpending : asked.answer = .pending := rfl
  have htext : before.text "a" = some "y" := rfl
  refine ⟨hcreate, hpending, ?_, ?_⟩
  · obtain ⟨-, -, outcome, -, hfinish, -, hopen⟩ := finished_outcome hcreate
      [.opened "a" 1 "x", .changed "a" 2 "y"] "q" "a" [.symbols "a", .closed "a", .opened "a" 2 "y"]
      (by decide)
    have hcancelled := (((hopen "y" htext).2 hpending).1).2 ⟨.closed "a", by simp, rfl⟩
    rw [hcancelled] at hfinish
    exact hfinish
  · obtain ⟨-, -, outcome, -, hfinish, -, hopen⟩ := finished_outcome hcreate
      [.opened "a" 1 "x", .changed "a" 2 "y"] "q" "a" [.closed "b", .begin "r" "a", .changed "b" 3 "z"]
      (by decide)
    obtain ⟨h, rfl, hmodel⟩ := ((hopen "y" htext).2 hpending).2 (by decide)
    rw [← hmodel]
    exact hfinish

end Store

end RexxService
