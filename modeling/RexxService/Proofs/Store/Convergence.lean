import RexxService.Proofs.Store.Publications

/-!
# Diagnostics catch up with the documents

Tasks of many edits overlap, and each of them compares versions only.  What a client is shown is right
in the end all the same: a task publishes what it finds, so whichever task for the current version
comes last leaves the diagnostics of the current text.

* **`latest`** — the publication that a client shows for a document;
* **`Informed`** — a client is shown a document as it is, unless a task for its version is waiting;
* **`Informed.announces`** — requests that do not edit the document keep a client informed;
* **`informed_serve`**, **`informed_after`** — so does every request, and every session;
* **`publications_converge`** — when no task is waiting, a client is shown every document as it is.
-/

namespace RexxService

open RexxService.Text

/-- Whether a request opens or closes the document at an address. -/
def Request.opensOrCloses (uri : String) : Request → Bool
  | .opened u _ _ | .closed u => u == uri
  | _ => false

theorem Request.opensOrCloses_of_not_edits {uri : String} {q : Request} (h : q.edits uri = false) :
    q.opensOrCloses uri = false := by
  cases q with
  | opened u version text | closed u => exact h
  | _ => rfl

namespace Store

def latest (uri : String) (ps : List Publication) : Option Publication :=
  (ps.filter fun p => p.uri == uri).getLast?

def publications (s : Store) (qs : List Request) : List Publication :=
  (s.run qs).flatMap (·.published)

/-- If only one thing is published for a document, and it has been published before or is published
now, then it is the latest. -/
theorem latest_append {uri : String} {ps qs : List Publication} {p : Publication}
    (huri : p.uri = uri) (hqs : ∀ q ∈ qs, q.uri = uri → q = p)
    (h : latest uri ps = some p ∨ p ∈ qs) : latest uri (ps ++ qs) = some p := by
  rw [latest, List.filter_append, List.getLast?_append]
  cases hlast : (qs.filter fun q => q.uri == uri).getLast? with
  | some q =>
      obtain ⟨hq, hquri⟩ := List.mem_filter.1 (List.mem_of_getLast? hlast)
      rw [hqs q hq (eq_of_beq hquri)]
      rfl
  | none =>
      have hnone : ∀ q ∈ qs, ¬ (q.uri == uri) = true :=
        List.filter_eq_nil_iff.1 (List.getLast?_eq_none_iff.1 hlast)
      rcases h with h | h
      · exact h
      · exact (hnone p h (beq_iff_eq.2 huri)).elim

/-- A client that has been sent `ps` is shown a document as it is, unless a task for its version is
waiting.  Nothing need be shown for a document that is not `known`. -/
structure Informed (s : Store) (uri : String) (known : Bool) (ps : List Publication) : Prop where
  opened : ∀ c, s.contents uri = some c →
    (∃ t ∈ s.tasks, t.uri = uri ∧ t.version = c.version) ∨
      ∀ ds, (Model.parse uri c.text).diagnostics = .ok ds →
        latest uri ps = some ⟨uri, some c.version, ds⟩
  closed : s.contents uri = none → known = true → latest uri ps = some ⟨uri, none, []⟩

/-- The first request finds a client informed. -/
theorem informed_of_create {config : Config} {publishes : Bool} {s : Store}
    (h : create config publishes = .ok s) (uri : String) : s.Informed uri false [] := by
  refine ⟨?_, fun _ hknown => nomatch hknown⟩
  intro c hc
  rw [(follows_of_create h).contents] at hc
  cases hc

/-- As long as a document is not edited, a client stays informed. -/
theorem Informed.announces {s s' : Store} {uri : String} {known : Bool} {ps qs : List Publication}
    (h : s.Informed uri known ps) (ha : Announces uri s s' qs) : s'.Informed uri known (ps ++ qs) where
  opened := by
    intro c hc
    rw [ha.contents] at hc
    -- Whatever is published is the one report that can be made of the document.
    have hsame : ∀ ds, (Model.parse uri c.text).diagnostics = .ok ds →
        ∀ p ∈ qs, p.uri = uri → p = ⟨uri, some c.version, ds⟩ := by
      rintro ds hds ⟨_, version, diagnostics⟩ hp rfl
      obtain ⟨c', hc', hversion, hdiagnostics⟩ := ha.reports _ hp rfl
      obtain rfl := Option.some.inj (hc.symm.trans hc')
      obtain rfl := hversion
      obtain rfl := Except.ok.inj (hds.symm.trans hdiagnostics)
      rfl
    rcases h.opened c hc with ⟨t, ht, rfl, hversion⟩ | hshown
    · rcases ha.tasks t ht rfl with hwaiting | hannounced
      · exact Or.inl ⟨t, hwaiting, rfl, hversion⟩
      · right
        intro ds hds
        rw [hc] at hannounced
        exact latest_append rfl (hsame ds hds) (Or.inr (hannounced (mem_announcement hversion hds)))
    · exact Or.inr fun ds hds => latest_append rfl (hsame ds hds) (Or.inl (hshown ds hds))
  closed := by
    intro hnone hknown
    rw [ha.contents] at hnone
    refine latest_append rfl ?_ (Or.inl (h.closed hnone hknown))
    intro p hp huri
    obtain ⟨c, hc, -⟩ := ha.reports p hp huri
    rw [hnone] at hc
    cases hc

/-- A document with a task for its version keeps a client informed, whatever was published. -/
theorem informed_of_task {s : Store} {uri : String} {c : Contents} {t : Task}
    (hc : s.contents uri = some c) (ht : t ∈ s.tasks) (huri : t.uri = uri)
    (hversion : t.version = c.version) (known : Bool) (ps : List Publication) :
    s.Informed uri known ps := by
  refine ⟨?_, ?_⟩
  · intro c' hc'
    obtain rfl := Option.some.inj (hc.symm.trans hc')
    exact Or.inl ⟨t, ht, huri, hversion⟩
  · intro hnone
    rw [hc] at hnone
    cases hnone

theorem mem_schedule {s : Store} (h : s.publishes = true) (uri : String) (version : Int)
    (delay : Nat) : ⟨uri, version, s.clock + delay⟩ ∈ (s.schedule uri version delay).tasks := by
  rw [schedule, if_pos h]
  exact List.mem_append_right _ List.mem_cons_self

/-- Every request of a client keeps it informed about every document. -/
theorem informed_serve {s : Store} (hs : s.Sound) (hpublishes : s.publishes = true) {uri : String}
    {known : Bool} {ps : List Publication} (h : s.Informed uri known ps) (q : Request) :
    (s.serve q).store.Informed uri (known || q.opensOrCloses uri) (ps ++ (s.serve q).published) := by
  cases hq : q.edits uri with
  | false =>
      rw [Request.opensOrCloses_of_not_edits hq, Bool.or_false]
      exact h.announces (announces_serve hs hq)
  | true =>
  cases q with
  | opened u version text =>
      obtain rfl := eq_of_beq hq
      obtain ⟨documents, analyses, hframe⟩ := openDocument_frame s u version text
      have hc : (s.openDocument u version text).contents u = some ⟨version, text⟩ := by
        rw [openDocument_contents, Function.update_self]
      refine informed_of_task hc (t := ⟨u, version, s.clock + s.config.openDelay⟩) ?_ rfl rfl _ _
      rw [hframe]
      exact mem_schedule (s := { s with documents := documents, analyses := analyses }) hpublishes u
        version _
  | changed u version text =>
      obtain rfl := eq_of_beq hq
      cases hopen : s.isOpen u with
      | false =>
          show (s.changeDocument u version text).Informed u (known || false) (ps ++ [])
          rw [changeDocument_of_closed hopen, Bool.or_false, List.append_nil]
          exact h
      | true =>
          obtain ⟨documents, analyses, hframe⟩ := changeDocument_frame hopen version text
          have hc : (s.changeDocument u version text).contents u = some ⟨version, text⟩ := by
            rw [changeDocument_contents, ← isOpen_eq, if_pos hopen, Function.update_self]
          refine informed_of_task hc (t := ⟨u, version, s.clock + s.config.changeDelay⟩) ?_ rfl rfl _ _
          rw [hframe]
          exact mem_schedule (s := { s with documents := documents, analyses := analyses }) hpublishes
            u version _
  | closed u =>
      obtain rfl := eq_of_beq hq
      have hc : (s.closeDocument u).2.contents u = none := by
        rw [closeDocument_contents, Function.update_self]
      show (s.closeDocument u).2.Informed u _ (ps ++ (s.closeDocument u).1)
      refine ⟨fun c hsome => ?_, fun _ _ => ?_⟩
      · rw [hc] at hsome
        cases hsome
      · refine latest_append rfl (fun p hp _ => eq_of_mem_closeDocument hp) (Or.inr ?_)
        rw [closeDocument_published, if_pos hpublishes]
        exact List.mem_cons_self
  | _ => cases hq

/-- Every session keeps a client informed. -/
theorem informed_after {s : Store} (hs : s.Sound) (hpublishes : s.publishes = true) {uri : String}
    {known : Bool} {ps : List Publication} (h : s.Informed uri known ps) (qs : List Request) :
    (s.after qs).Informed uri (known || qs.any (Request.opensOrCloses uri))
      (ps ++ s.publications qs) := by
  induction qs generalizing s known ps with
  | nil =>
      rw [List.any_nil, Bool.or_false, publications, run, List.flatMap_nil, List.append_nil]
      exact h
  | cons q qs ih =>
      have hnext := ih (sound_serve hs q) ((serve_frame s q).1.trans hpublishes)
        (informed_serve hs hpublishes h q)
      rw [Bool.or_assoc, ← List.any_cons, List.append_assoc] at hnext
      exact hnext

theorem publishes_of_create {config : Config} {publishes : Bool} {s : Store}
    (h : create config publishes = .ok s) : s.publishes = publishes := by
  rw [create] at h
  split at h
  · cases h
    rfl
  · cases h

/-- **Published diagnostics converge to the document.**  At the end of any session with a store that
publishes, when no task is waiting any more, the latest publication for an open document has its
version and exactly the diagnostics of its text.  For a document that is not open but was opened or
closed at least once, the latest publication is empty and has no version.  The versions may repeat or
go down, and the settings may change on the way.  An open document has diagnostics whenever the places
of its text can be counted. -/
theorem publications_converge {config : Config} {s : Store} (hcreate : create config true = .ok s)
    (qs : List Request) (hidle : (s.after qs).tasks = []) (uri : String) :
    (∀ c, (s.after qs).contents uri = some c →
      (∀ ds, (Model.parse uri c.text).diagnostics = .ok ds →
        latest uri (s.publications qs) = some ⟨uri, some c.version, ds⟩) ∧
      (units c.text.toList < Counter.placeLimit →
        ∃ ds, (Model.parse uri c.text).diagnostics = .ok ds)) ∧
    ((s.after qs).contents uri = none → (∃ q ∈ qs, q.opensOrCloses uri = true) →
      latest uri (s.publications qs) = some ⟨uri, none, []⟩) := by
  have hinformed := informed_after (follows_of_create hcreate).sound (publishes_of_create hcreate)
    (informed_of_create hcreate uri) qs
  rw [List.nil_append, Bool.false_or] at hinformed
  refine ⟨fun c hc => ⟨?_, Model.diagnostics_parse uri⟩, ?_⟩
  · rcases hinformed.opened c hc with ⟨t, ht, -⟩ | hshown
    · rw [hidle] at ht
      cases ht
    · exact hshown
  · intro hnone hknown
    exact hinformed.closed hnone (List.any_eq_true.2 hknown)

/-- A document whose version goes down while its delays get shorter, and one that is closed before its
task runs. -/
theorem publications_converge_version_down :
    let session : List Request := [.opened "a" 2 "x = 1",
      .settings (.object [("diagnostics", .object [("changeDelayMs", .integer 0)])]),
      .changed "a" 1 "end", .opened "b" 1 "end", .closed "b", .advance 150]
    create .standard true = .ok (ofConfig .standard true) ∧
      ((ofConfig .standard true).after session).tasks = [] ∧
      (∃ ds, (Model.parse "a" "end").diagnostics = .ok ds ∧
        latest "a" ((ofConfig .standard true).publications session) = some ⟨"a", some 1, ds⟩) ∧
      latest "b" ((ofConfig .standard true).publications session) = some ⟨"b", none, []⟩ := by
  intro session
  have hcreate : create .standard true = .ok (ofConfig .standard true) := rfl
  have hidle : ((ofConfig .standard true).after session).tasks = [] := rfl
  have hopen : ((ofConfig .standard true).after session).contents "a" = some ⟨1, "end"⟩ := rfl
  refine ⟨hcreate, hidle, ?_, ?_⟩
  · obtain ⟨hshown, hcounted⟩ := (publications_converge hcreate session hidle "a").1 _ hopen
    obtain ⟨ds, hds⟩ := hcounted (by decide)
    exact ⟨ds, hds, hshown ds hds⟩
  · exact (publications_converge hcreate session hidle "b").2 rfl ⟨.closed "b", by simp [session], rfl⟩

end Store

end RexxService
