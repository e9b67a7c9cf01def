import RexxService.Proofs.Model.Ranges
import RexxService.Proofs.Store.Lifetime

/-!
# What a store publishes

A task publishes what its document holds at the moment it runs, and documents do not change while
tasks run.  So what is published follows from the tasks and from what clients have written, whatever
analyses there are.

* **`announcement`** — what a task publishes, given the contents of its document;
* **`settle_published`** — settling publishes the announcements of the tasks that are due;
* **`Announces uri s s' ps`** — what a request does for a document that it does not edit: everything
  published for it is a report of its contents, and a task is still waiting or has been announced;
* **`publications_up_to_date`** — every publication of every session is a report of the document as it
  is at that moment, or made by closing the document.
-/

namespace RexxService

/-- A publication tells the version of an open document and the diagnostics of its text. -/
def Publication.Reports (p : Publication) (written : Option Contents) : Prop :=
  ∃ c, written = some c ∧ p.version = some c.version ∧
    (Model.parse p.uri c.text).diagnostics = .ok p.diagnostics

namespace Store

/-! ### Tasks -/

/-- What a task publishes: nothing unless its document is open with the task's version. -/
def announcement (written : Option Contents) (t : Task) : List Publication :=
  match written with
  | none => []
  | some c =>
      if c.version = t.version then
        match (Model.parse t.uri c.text).diagnostics with
        | .error _ => []
        | .ok ds => [⟨t.uri, some t.version, ds⟩]
      else []

theorem reports_of_mem_announcement {written : Option Contents} {t : Task} {p : Publication}
    (h : p ∈ announcement written t) : p.uri = t.uri ∧ p.Reports written := by
  cases written with
  | none => cases h
  | some c =>
      rw [announcement] at h
      split at h
      · rename_i hversion
        split at h
        · cases h
        · rename_i ds hds
          obtain rfl := List.mem_singleton.1 h
          exact ⟨rfl, c, rfl, by rw [hversion], hds⟩
      · cases h

/-- A task for the version that its document has is announced, if there are diagnostics. -/
theorem mem_announcement {c : Contents} {t : Task} (hversion : t.version = c.version)
    {ds : List Diagnostic} (hds : (Model.parse t.uri c.text).diagnostics = .ok ds) :
    ⟨t.uri, some c.version, ds⟩ ∈ announcement (some c) t := by
  simp [announcement, hversion, hds]

theorem runTask_published {s : Store} (hs : s.Sound) (t : Task) :
    (s.runTask t).1 = announcement (s.contents t.uri) t := by
  have hversion := version_eq s t.uri
  cases hc : s.contents t.uri with
  | none =>
      rw [hc] at hversion
      rw [runTask, if_neg (by simp [hversion])]
      rfl
  | some c =>
      obtain ⟨n, hn, -⟩ := awaitModel_of_some hs hc
      rw [hc] at hversion
      by_cases hcurrent : c.version = t.version
      · rw [runTask_published_of_current (hversion.trans (congrArg some hcurrent)), hn, announcement,
          if_pos hcurrent]
        rfl
      · rw [runTask, if_neg (by simp [hversion, hcurrent]), announcement, if_neg hcurrent]

/-- Tasks that run in turn find the same contents. -/
theorem runTasks_published {s : Store} (hs : s.Sound) (ts : List Task) :
    (s.runTasks ts).1 = ts.flatMap fun t => announcement (s.contents t.uri) t := by
  induction ts generalizing s with
  | nil => rfl
  | cons t ts ih =>
      have hsteady := (works_runTask s t).steady
      rw [List.flatMap_cons, ← runTask_published hs, ← hsteady.contents, ← ih (hsteady.sound hs)]
      rfl

theorem settle_published {s : Store} (hs : s.Sound) :
    s.settle.1 = (s.tasks.filter fun t => decide (t.due ≤ s.clock)).flatMap
      fun t => announcement (s.contents t.uri) t := by
  have hran : Steady s (runAll { s with tasks := s.tasks.filter fun t => !decide (t.due ≤ s.clock) }) := by
    have hsteady := (works_runAll s).steady
    exact ⟨hsteady.config, hsteady.contents, hsteady.sound⟩
  rw [settle_eq, runTasks_published (hran.sound hs), hran.contents]

/-! ### Leaving a document as it is -/

/-- A store got from `s` to `s'`, and published `ps` meanwhile, without an edit of a document. -/
structure Announces (uri : String) (s s' : Store) (ps : List Publication) : Prop where
  contents : s'.contents uri = s.contents uri
  reports : ∀ p ∈ ps, p.uri = uri → p.Reports (s.contents uri)
  /-- A task is still waiting, or it has been announced. -/
  tasks : ∀ t ∈ s.tasks, t.uri = uri → t ∈ s'.tasks ∨ announcement (s.contents uri) t ⊆ ps

namespace Announces

variable {uri : String}

/-- With nothing published, no task may get lost. -/
theorem of_tasks {s s' : Store} (hcontents : s'.contents uri = s.contents uri)
    (htasks : s.tasks ⊆ s'.tasks) : Announces uri s s' [] :=
  ⟨hcontents, fun _ hp => (List.not_mem_nil hp).elim, fun _ ht _ => Or.inl (htasks ht)⟩

theorem trans {s s' s'' : Store} {ps qs : List Publication} (h : Announces uri s s' ps)
    (h' : Announces uri s' s'' qs) : Announces uri s s'' (ps ++ qs) where
  contents := h'.contents.trans h.contents
  reports := by
    intro p hp huri
    rcases List.mem_append.1 hp with hp | hp
    · exact h.reports p hp huri
    · rw [← h.contents]
      exact h'.reports p hp huri
  tasks := by
    intro t ht huri
    rcases h.tasks t ht huri with ht' | hps
    · rw [← h.contents]
      rcases h'.tasks t ht' huri with ht'' | hqs
      · exact Or.inl ht''
      · exact Or.inr fun p hp => List.mem_append_right ps (hqs hp)
    · exact Or.inr fun p hp => List.mem_append_left qs (hps hp)

end Announces

theorem Works.announces {s s' : Store} (h : Works s s') (uri : String) : Announces uri s s' [] := by
  refine .of_tasks (congrFun h.steady.contents uri) ?_
  obtain ⟨documents, analyses, rfl⟩ := h.frame
  exact List.Subset.refl s.tasks

theorem announces_settle {s : Store} (hs : s.Sound) (uri : String) :
    Announces uri s s.settle.2 s.settle.1 := by
  refine ⟨congrFun (steady_settle s).contents uri, ?_, ?_⟩
  · intro p hp huri
    rw [settle_published hs] at hp
    obtain ⟨t, -, hpt⟩ := List.mem_flatMap.1 hp
    obtain ⟨htask, hreports⟩ := reports_of_mem_announcement hpt
    rw [← huri, htask]
    exact hreports
  · rintro t ht rfl
    by_cases hdue : t.due ≤ s.clock
    · right
      intro p hp
      rw [settle_published hs]
      exact List.mem_flatMap.2 ⟨t, List.mem_filter.2 ⟨ht, by simpa using hdue⟩, hp⟩
    · left
      obtain ⟨documents, analyses, hframe⟩ := settle_frame s
      rw [hframe]
      exact List.mem_filter.2 ⟨ht, by simpa using hdue⟩

theorem Passes.announces {s s' : Store} {ps : List Publication} (h : Passes s ps s') (hs : s.Sound)
    (uri : String) : Announces uri s s' ps := by
  induction h with
  | rest => exact .of_tasks rfl (List.Subset.refl _)
  | noted _ _ _ _ _ ih => exact ⟨ih.contents, ih.reports, ih.tasks⟩
  | worked _ hworks ih =>
      have h := ih.trans (hworks.announces uri)
      rw [List.append_nil] at h
      exact h
  | settled h ih => exact ih.trans (announces_settle (h.sound hs) uri)

/-! ### Edits -/

theorem subset_schedule (s : Store) (uri : String) (version : Int) (delay : Nat) :
    s.tasks ⊆ (s.schedule uri version delay).tasks := by
  rw [schedule]
  split
  · exact List.subset_append_left _ _
  · exact List.Subset.refl _

theorem subset_openDocument (s : Store) (uri : String) (version : Int) (text : String) :
    s.tasks ⊆ (s.openDocument uri version text).tasks := by
  obtain ⟨documents, analyses, hframe⟩ := openDocument_frame s uri version text
  rw [hframe]
  exact subset_schedule { s with documents := documents, analyses := analyses } uri version _

theorem subset_changeDocument (s : Store) (uri : String) (version : Int) (text : String) :
    s.tasks ⊆ (s.changeDocument uri version text).tasks := by
  cases hopen : s.isOpen uri with
  | false =>
      rw [changeDocument_of_closed hopen]
      exact List.Subset.refl _
  | true =>
      obtain ⟨documents, analyses, hframe⟩ := changeDocument_frame hopen version text
      rw [hframe]
      exact subset_schedule { s with documents := documents, analyses := analyses } uri version _

theorem closeDocument_published (s : Store) (uri : String) :
    (s.closeDocument uri).1 = if s.publishes then [⟨uri, none, []⟩] else [] := by
  obtain ⟨documents, analyses, hframe⟩ := closeDocument_frame s uri
  rw [hframe]

/-- Closing a document publishes nothing but that. -/
theorem eq_of_mem_closeDocument {s : Store} {uri : String} {p : Publication}
    (hp : p ∈ (s.closeDocument uri).1) : p = ⟨uri, none, []⟩ := by
  rw [closeDocument_published] at hp
  split at hp
  · exact List.mem_singleton.1 hp
  · cases hp

/-! ### One request -/

/-- A request publishes nothing but reports for a document that it does not edit. -/
theorem announces_serve {s : Store} (hs : s.Sound) {uri : String} {q : Request}
    (h : q.edits uri = false) : Announces uri s (s.serve q).store (s.serve q).published := by
  have hcontents := contents_serve hs h
  have hpasses (h : q.passes = true) := (passes_serve s h).announces hs uri
  cases q with
  | opened u version text => exact .of_tasks hcontents (subset_openDocument s u version text)
  | changed u version text => exact .of_tasks hcontents (subset_changeDocument s u version text)
  | closed u =>
      refine ⟨hcontents, ?_, ?_⟩
      · intro p hp huri
        have hp : p ∈ (s.closeDocument u).1 := hp
        rw [eq_of_mem_closeDocument hp] at huri
        exact ((beq_eq_false_iff_ne.1 h) huri).elim
      · intro t ht _
        left
        obtain ⟨documents, analyses, hframe⟩ := closeDocument_frame s u
        show t ∈ (s.closeDocument u).2.tasks
        rw [hframe]
        exact ht
  | begin name u =>
      have hannounces := (works_request s u).announces uri
      exact ⟨hannounces.contents, hannounces.reports, hannounces.tasks⟩
  | _ => exact hpasses rfl

/-- A publication reports a document that is not edited meanwhile, or comes from closing one. -/
theorem published_serve {s : Store} (hs : s.Sound) {q : Request} {p : Publication}
    (hp : p ∈ (s.serve q).published) :
    (p.Reports (s.contents p.uri) ∧ (s.serve q).store.contents p.uri = s.contents p.uri) ∨
      (q = .closed p.uri ∧ p = ⟨p.uri, none, []⟩) := by
  cases hq : q.edits p.uri with
  | false =>
      have hannounces := announces_serve hs hq
      exact Or.inl ⟨hannounces.reports p hp rfl, hannounces.contents⟩
  | true =>
  cases q with
  | opened uri version text | changed uri version text => cases hp
  | closed uri =>
      obtain rfl := eq_of_mem_closeDocument hp
      exact Or.inr ⟨rfl, rfl⟩
  | _ => cases hq

/-! ### Stores that do not publish -/

/-- A store that does not publish has no tasks. -/
def Silent (s : Store) : Prop := s.publishes = false ∧ s.tasks = []

theorem Silent.settle {s : Store} (h : s.Silent) : s.settle.1 = [] ∧ s.settle.2.Silent := by
  obtain ⟨documents, analyses, hframe⟩ := settle_frame s
  refine ⟨?_, ?_⟩
  · rw [settle_eq, h.2]
    rfl
  · rw [hframe]
    exact ⟨h.1, by rw [h.2]; rfl⟩

theorem Silent.schedule {s : Store} (h : s.Silent) (uri : String) (version : Int) (delay : Nat) :
    (s.schedule uri version delay).Silent := by
  rw [Store.schedule, h.1]
  exact h

theorem Passes.silent {s s' : Store} {ps : List Publication} (h : Passes s ps s') (hs : s.Silent) :
    ps = [] ∧ s'.Silent := by
  induction h with
  | rest => exact ⟨rfl, hs⟩
  | noted _ _ _ _ _ ih => exact ih
  | worked _ hworks ih =>
      obtain ⟨documents, analyses, rfl⟩ := hworks.frame
      exact ih
  | settled _ ih =>
      obtain ⟨rfl, hsilent⟩ := ih
      exact hsilent.settle

theorem silent_of_create {config : Config} {s : Store} (h : create config false = .ok s) :
    s.Silent := by
  rw [create] at h
  split at h
  · cases h
    exact ⟨rfl, rfl⟩
  · cases h

/-- Such a store publishes nothing, and stays as it is. -/
theorem silent_serve {s : Store} (h : s.Silent) (q : Request) :
    (s.serve q).published = [] ∧ (s.serve q).store.Silent := by
  have hpasses (hq : q.passes = true) := (passes_serve s hq).silent h
  cases q with
  | opened uri version text =>
      obtain ⟨documents, analyses, hframe⟩ := openDocument_frame s uri version text
      refine ⟨rfl, ?_⟩
      show (s.openDocument uri version text).Silent
      rw [hframe]
      refine Silent.schedule ?_ uri version _
      exact h
  | changed uri version text =>
      refine ⟨rfl, ?_⟩
      show (s.changeDocument uri version text).Silent
      cases hopen : s.isOpen uri with
      | false =>
          rw [changeDocument_of_closed hopen]
          exact h
      | true =>
          obtain ⟨documents, analyses, hframe⟩ := changeDocument_frame hopen version text
          rw [hframe]
          refine Silent.schedule ?_ uri version _
          exact h
  | closed uri =>
      obtain ⟨documents, analyses, hframe⟩ := closeDocument_frame s uri
      show (s.closeDocument uri).1 = [] ∧ (s.closeDocument uri).2.Silent
      rw [hframe]
      exact ⟨if_neg (by rw [h.1]; exact Bool.false_ne_true), h⟩
  | begin name uri =>
      obtain ⟨documents, analyses, hframe⟩ := (works_request s uri).frame
      refine ⟨rfl, ?_⟩
      show Silent { (s.request uri).2 with tickets := _ }
      rw [hframe]
      exact h
  | _ => exact hpasses rfl

theorem silent_after {s : Store} (h : s.Silent) (qs : List Request) : (s.after qs).Silent := by
  induction qs generalizing s with
  | nil => exact h
  | cons q qs ih => exact ih (silent_serve h q).2

/-! ### Sessions -/

/-- **No stale publication.**  In every session, a publication with a version is made while the
document is open with exactly that version, and its diagnostics are those of the text that the
document has at that moment, before and after the request that publishes it.  A publication without a
version belongs to a request that closes the document, and is empty.  A store that does not publish
never does, and a change of a document that is not open leaves everything as if it had not been
asked for. -/
theorem publications_up_to_date {config : Config} {publishes : Bool} {s : Store}
    (hcreate : create config publishes = .ok s) (qs : List Request) :
    (∀ (i : Nat) (reply : Reply), (s.run qs)[i]? = some reply → ∃ q, qs[i]? = some q ∧
      ∀ p ∈ reply.published, publishes = true ∧
        (∀ version, p.version = some version → ∃ c, (s.after (qs.take i)).contents p.uri = some c ∧
          reply.store.contents p.uri = some c ∧ c.version = version ∧
          (Model.parse p.uri c.text).diagnostics = .ok p.diagnostics) ∧
        (p.version = none → q = .closed p.uri ∧ p.diagnostics = [])) ∧
    ∀ (uri : String) (version : Int) (text : String), (s.after qs).isOpen uri = false →
      ∀ rest, (s.after qs).run (.changed uri version text :: rest)
        = (s.after qs).reply .done :: (s.after qs).run rest := by
  refine ⟨?_, ?_⟩
  · intro i reply hreply
    rw [getElem?_run] at hreply
    obtain ⟨q, hq, rfl⟩ := Option.map_eq_some_iff.1 hreply
    have hsound := sound_after (follows_of_create hcreate).sound (qs.take i)
    refine ⟨q, hq, fun p hp => ⟨?_, ?_⟩⟩
    · cases publishes with
      | true => rfl
      | false =>
          have hsilent := silent_after (silent_of_create hcreate) (qs.take i)
          rw [(silent_serve hsilent q).1] at hp
          cases hp
    · rcases published_serve hsound hp with ⟨⟨c, hc, hversion, hds⟩, hcontents⟩ | ⟨hclosed, hempty⟩
      · rw [hversion]
        refine ⟨fun version heq => ⟨c, hc, hcontents.trans hc, Option.some.inj heq, hds⟩, ?_⟩
        intro hnone
        cases hnone
      · rw [hempty]
        refine ⟨fun version heq => ?_, fun _ => ⟨hclosed, rfl⟩⟩
        cases heq
  · intro uri version text hopen rest
    have hserve : (s.after qs).serve (.changed uri version text) = (s.after qs).reply .done := by
      show Reply.mk .done [] ((s.after qs).changeDocument uri version text) = _
      rw [changeDocument_of_closed hopen]
      rfl
    rw [run, hserve]
    rfl

/-- Two texts under one version: the task of the first finds the second, and all that is published
for the version is about that. -/
theorem publications_up_to_date_reused_version :
    let session : List Request := [.opened "a" 1 "x = 1", .changed "a" 1 "end", .advance 300]
    let before := (ofConfig .standard true).after (session.take 2)
    create .standard true = .ok (ofConfig .standard true) ∧
      ((ofConfig .standard true).run session)[2]? = some (before.serve (.advance 300)) ∧
      (∃ p ∈ (before.serve (.advance 300)).published, p.uri = "a" ∧ p.version = some 1) ∧
      ∀ p ∈ (before.serve (.advance 300)).published, p.uri = "a" → p.version = some 1 →
        (Model.parse "a" "end").diagnostics = .ok p.diagnostics := by
  intro session before
  have hcreate : create .standard true = .ok (ofConfig .standard true) := rfl
  have hreply : ((ofConfig .standard true).run session)[2]? = some (before.serve (.advance 300)) := rfl
  have hc : before.contents "a" = some ⟨1, "end"⟩ := rfl
  refine ⟨hcreate, hreply, ?_, ?_⟩
  · have hsound : before.Sound := sound_after (follows_of_create hcreate).sound _
    obtain ⟨ds, hds⟩ := Model.diagnostics_parse "a"
      (show Text.units "end".toList < Counter.placeLimit by decide)
    have htasks : before.tasks = [⟨"a", 1, 150⟩, ⟨"a", 1, 250⟩] := rfl
    have htask : ⟨"a", 1, 150⟩ ∈ before.tasks := by rw [htasks]; exact List.mem_cons_self
    rcases (announces_serve (q := .advance 300) hsound rfl).tasks _ htask rfl with hleft | hannounced
    · cases hleft
    · rw [hc] at hannounced
      exact ⟨_, hannounced (mem_announcement rfl hds), rfl, rfl⟩
  · rintro p hp huri hversion
    obtain ⟨q, -, hall⟩ := (publications_up_to_date hcreate session).1 2 _ hreply
    obtain ⟨c, hcontents, -, -, hds⟩ := (hall p hp).2.1 1 hversion
    rw [huri] at hcontents hds
    obtain rfl := Option.some.inj (hc.symm.trans hcontents)
    exact hds

end Store

end RexxService
