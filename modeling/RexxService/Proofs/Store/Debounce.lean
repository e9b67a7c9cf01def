import Mathlib.Data.List.Nodup
import RexxService.Proofs.Store.Convergence

/-!
# Diagnostics wait, and are published once

Each edit schedules a task of its own, with the delay that the configuration has at that moment, so the
tasks of later edits may fall due before those of earlier ones.  Tasks only compare versions.  As long
as no two edits of a document have the same version this is enough: a version that is published
belongs to one edit and to one task.

* **`timed`** — what a request publishes, with the time of each publication;
* **`newTasks`**, **`mem_tasks_after`** — the tasks of an edit, and that there are no others;
* **`last_edit`** — every open document is as its last edit has left it;
* **`count_after`** — no version is published or waiting more often than it was written;
* **`publications_debounced`** — an edit is published at most once, not before its delay is over, not
  after the next edit, and in its turn.
-/

namespace RexxService

/-! ### Edits and their versions -/

namespace Request

/-- What a request writes at an address, if the document there can be written. -/
def written (uri : String) : Request → Option Contents
  | .opened u v t | .changed u v t => if u = uri then some ⟨v, t⟩ else none
  | _ => none

def delay (config : Config) : Request → Nat
  | .opened _ _ _ => config.openDelay
  | .changed _ _ _ => config.changeDelay
  | _ => 0

theorem edits_of_written {uri : String} {q : Request} {c : Contents} (h : q.written uri = some c) :
    q.edits uri = true := by
  cases q with
  | opened u v t | changed u v t =>
      rw [written] at h
      split at h
      · rename_i heq
        exact beq_iff_eq.2 heq
      · cases h
  | _ => cases h

end Request

/-- The versions that requests give to the document at an address, in turn. -/
def writtenVersions (uri : String) (qs : List Request) : List Int :=
  qs.filterMap fun q => (q.written uri).map (·.version)

theorem writtenVersions_append (uri : String) (qs rs : List Request) :
    writtenVersions uri (qs ++ rs) = writtenVersions uri qs ++ writtenVersions uri rs :=
  List.filterMap_append

theorem writtenVersions_cons (uri : String) (q : Request) (qs : List Request) :
    writtenVersions uri (q :: qs) = writtenVersions uri [q] ++ writtenVersions uri qs :=
  writtenVersions_append uri [q] qs

theorem writtenVersions_of_written {uri : String} {q : Request} {c : Contents}
    (h : q.written uri = some c) : writtenVersions uri [q] = [c.version] := by
  simp [writtenVersions, h]

/-- Requests that do not edit a document give it no version. -/
theorem writtenVersions_of_not_edits {uri : String} {qs : List Request}
    (h : ∀ q ∈ qs, q.edits uri = false) : writtenVersions uri qs = [] := by
  refine List.filterMap_eq_nil_iff.2 fun q hq => ?_
  cases hwritten : q.written uri with
  | none => rfl
  | some c =>
      have hedits := Request.edits_of_written hwritten
      rw [h q hq] at hedits
      cases hedits

/-- Two edits that come one after the other and have the same version. -/
theorem not_nodup_of_written {uri : String} {e e' : Request} {c c' : Contents}
    (he : e.written uri = some c) (he' : e'.written uri = some c') (hversion : c.version = c'.version)
    (front mid back : List Request) :
    ¬ (writtenVersions uri (front ++ e :: (mid ++ e' :: back))).Nodup := by
  intro h
  rw [writtenVersions_append, writtenVersions_cons, writtenVersions_of_written he] at h
  have hnot : c.version ∉ writtenVersions uri (mid ++ e' :: back) :=
    (List.nodup_cons.1 (List.nodup_append.1 h).2.1).1
  rw [writtenVersions_append, writtenVersions_cons uri e', writtenVersions_of_written he',
    ← hversion] at hnot
  exact hnot (List.mem_append_right _ (List.mem_append_left _ List.mem_cons_self))

/-- If no version is written twice, then one version belongs to one edit. -/
theorem edit_unique {uri : String} {front front' back back' : List Request} {e e' : Request}
    {c c' : Contents} (hsplit : front ++ e :: back = front' ++ e' :: back')
    (hdistinct : (writtenVersions uri (front ++ e :: back)).Nodup) (he : e.written uri = some c)
    (he' : e'.written uri = some c') (hversion : c.version = c'.version) :
    front = front' ∧ e = e' ∧ back = back' := by
  rcases List.append_eq_append_iff.1 hsplit with ⟨mid, hfront, hback⟩ | ⟨mid, hfront, hback⟩
  · cases mid with
    | nil =>
        obtain ⟨rfl, rfl⟩ := List.cons.inj hback
        exact ⟨(hfront.trans (List.append_nil front)).symm, rfl, rfl⟩
    | cons x mid =>
        obtain ⟨rfl, rfl⟩ := List.cons.inj hback
        exact (not_nodup_of_written he he' hversion front mid back' hdistinct).elim
  · cases mid with
    | nil =>
        obtain ⟨rfl, rfl⟩ := List.cons.inj hback
        exact ⟨hfront.trans (List.append_nil front'), rfl, rfl⟩
    | cons x mid =>
        obtain ⟨rfl, rfl⟩ := List.cons.inj hback
        rw [hsplit] at hdistinct
        exact (not_nodup_of_written he' he hversion.symm front' mid back hdistinct).elim

/-- The versions of the publications for a document, in turn. -/
def publishedVersions (uri : String) (ps : List Publication) : List Int :=
  ps.filterMap fun p => if p.uri = uri then p.version else none

theorem publishedVersions_append (uri : String) (ps qs : List Publication) :
    publishedVersions uri (ps ++ qs) = publishedVersions uri ps ++ publishedVersions uri qs :=
  List.filterMap_append

theorem mem_publishedVersions {uri : String} {ps : List Publication} {v : Int} :
    v ∈ publishedVersions uri ps ↔ ∃ p ∈ ps, p.uri = uri ∧ p.version = some v := by
  simp [publishedVersions]

/-- The versions that tasks wait to publish for a document, in turn. -/
def awaitedVersions (uri : String) (ts : List Task) : List Int :=
  ts.filterMap fun t => if t.uri = uri then some t.version else none

theorem awaitedVersions_append (uri : String) (ts us : List Task) :
    awaitedVersions uri (ts ++ us) = awaitedVersions uri ts ++ awaitedVersions uri us :=
  List.filterMap_append

namespace Store

theorem publications_cons (s : Store) (q : Request) (qs : List Request) :
    s.publications (q :: qs) = (s.serve q).published ++ (s.serve q).store.publications qs := rfl

theorem publications_snoc (s : Store) (qs : List Request) (q : Request) :
    s.publications (qs ++ [q]) = s.publications qs ++ ((s.after qs).serve q).published := by
  induction qs generalizing s with
  | nil => exact List.append_nil _
  | cons r qs ih =>
      rw [List.cons_append, publications_cons, ih, publications_cons, List.append_assoc]
      rfl

/-! ### The time of a publication -/

/-- What a request publishes, with the time of each publication. -/
def timed (s : Store) : Request → List (Nat × Publication)
  | .closed uri => (s.closeDocument uri).1.map (s.clock, ·)
  | .model _ _ | .completion _ _ | .symbols _ | .diagnostics _ | .finish _ =>
      s.settle.1.map (s.clock, ·)
  | .advance ms =>
      let later := { s.settle.2 with clock := s.clock + ms }
      s.settle.1.map (s.clock, ·) ++ later.settle.1.map (later.clock, ·)
  | _ => []

theorem settle_clock (s : Store) : s.settle.2.clock = s.clock := by
  obtain ⟨documents, analyses, hframe⟩ := settle_frame s
  rw [hframe]

/-- With the times left out, this is what the request publishes. -/
theorem timed_published (s : Store) (q : Request) :
    (s.timed q).map Prod.snd = (s.serve q).published := by
  cases q with
  | advance ms =>
      show _ = s.settle.1 ++ ({ s.settle.2 with clock := s.settle.2.clock + ms }).settle.1
      rw [settle_clock]
      simp [timed, Function.comp_def]
  | closed _ | model _ _ | completion _ _ | symbols _ | diagnostics _ | finish _ =>
      simp [timed, serve, Function.comp_def]
  | _ => rfl

theorem version_of_mem_announcement {written : Option Contents} {t : Task} {p : Publication}
    (h : p ∈ announcement written t) : p.version = some t.version := by
  obtain ⟨-, c, rfl, hversion, -⟩ := reports_of_mem_announcement h
  rw [announcement] at h
  split at h
  · rename_i heq
    rw [hversion, heq]
  · cases h

theorem mem_stamped {clock time : Nat} {p : Publication} {ps : List Publication} :
    (time, p) ∈ ps.map (clock, ·) ↔ clock = time ∧ p ∈ ps := by
  rw [List.mem_map]
  constructor
  · rintro ⟨_, hp, heq⟩
    obtain ⟨rfl, rfl⟩ := Prod.mk.inj heq
    exact ⟨rfl, hp⟩
  · rintro ⟨rfl, hp⟩
    exact ⟨p, hp, rfl⟩

/-- What settling publishes belongs to a task whose time has come. -/
theorem task_of_settle {s : Store} (hs : s.Sound) {p : Publication} (hp : p ∈ s.settle.1) :
    ∃ t ∈ s.tasks, t.uri = p.uri ∧ p.version = some t.version ∧ t.due ≤ s.clock := by
  rw [settle_published hs] at hp
  obtain ⟨t, ht, hp⟩ := List.mem_flatMap.1 hp
  obtain ⟨ht, hdue⟩ := List.mem_filter.1 ht
  exact ⟨t, ht, (reports_of_mem_announcement hp).1.symm, version_of_mem_announcement hp,
    of_decide_eq_true hdue⟩

theorem settle_tasks (s : Store) :
    s.settle.2.tasks = s.tasks.filter fun t => !decide (t.due ≤ s.clock) := by
  obtain ⟨documents, analyses, hframe⟩ := settle_frame s
  rw [hframe]

theorem tasks_settle_sublist (s : Store) : s.settle.2.tasks.Sublist s.tasks := by
  rw [settle_tasks]
  exact List.filter_sublist

/-- A request publishes a version only for a task whose time has come. -/
theorem task_of_timed {s : Store} (hs : s.Sound) {q : Request} {time : Nat} {p : Publication}
    {v : Int} (hp : (time, p) ∈ s.timed q) (hv : p.version = some v) :
    ∃ t ∈ s.tasks, t.uri = p.uri ∧ t.version = v ∧ t.due ≤ time := by
  have hsettled : (time, p) ∈ s.settle.1.map (s.clock, ·) →
      ∃ t ∈ s.tasks, t.uri = p.uri ∧ t.version = v ∧ t.due ≤ time := by
    intro hp
    obtain ⟨rfl, hsettled⟩ := mem_stamped.1 hp
    obtain ⟨t, ht, huri, hversion, hdue⟩ := task_of_settle hs hsettled
    exact ⟨t, ht, huri, Option.some.inj (hversion.symm.trans hv), hdue⟩
  cases q with
  | closed uri =>
      obtain ⟨-, hp⟩ := mem_stamped.1 hp
      rw [eq_of_mem_closeDocument hp] at hv
      cases hv
  | model _ _ | completion _ _ | symbols _ | diagnostics _ | finish _ => exact hsettled hp
  | advance ms =>
      rcases List.mem_append.1 hp with hp | hp
      · exact hsettled hp
      · obtain ⟨rfl, hlater⟩ := mem_stamped.1 hp
        have hsound : Sound { s.settle.2 with clock := s.clock + ms } := (steady_settle s).sound hs
        obtain ⟨t, ht, huri, hversion, hdue⟩ := task_of_settle hsound hlater
        exact ⟨t, (tasks_settle_sublist s).subset ht, huri,
          Option.some.inj (hversion.symm.trans hv), hdue⟩
  | _ => cases hp

theorem published_of_timed {s : Store} {q : Request} {time : Nat} {p : Publication}
    (hp : (time, p) ∈ s.timed q) : p ∈ (s.serve q).published := by
  rw [← timed_published]
  exact List.mem_map_of_mem hp

/-- A version is published only for a document that the request does not edit, and as it is. -/
theorem reports_serve {s : Store} (hs : s.Sound) {q : Request} {p : Publication} {v : Int}
    (hp : p ∈ (s.serve q).published) (hv : p.version = some v) :
    q.edits p.uri = false ∧ p.Reports (s.contents p.uri) := by
  cases hq : q.edits p.uri with
  | false => exact ⟨rfl, (announces_serve hs hq).reports p hp rfl⟩
  | true =>
  cases q with
  | opened uri version text | changed uri version text => cases hp
  | closed uri =>
      rw [eq_of_mem_closeDocument hp] at hv
      cases hv
  | _ => cases hq

/-! ### Where tasks and documents come from -/

def newTasks (s : Store) : Request → List Task
  | .opened uri version _ =>
      if s.publishes then [⟨uri, version, s.clock + s.config.openDelay⟩] else []
  | .changed uri version _ =>
      if s.isOpen uri && s.publishes then [⟨uri, version, s.clock + s.config.changeDelay⟩] else []
  | _ => []

theorem schedule_tasks (s : Store) (uri : String) (version : Int) (delay : Nat) :
    (s.schedule uri version delay).tasks
      = s.tasks ++ if s.publishes then [⟨uri, version, s.clock + delay⟩] else [] := by
  rw [schedule]
  split
  · rfl
  · exact (List.append_nil _).symm

/-- A request that edits a document or begins a query leaves the tasks there are, and adds its own. -/
theorem serve_tasks {s : Store} {q : Request} (h : q.passes = false) :
    (s.serve q).store.tasks = s.tasks ++ s.newTasks q := by
  cases q with
  | opened uri version text =>
      obtain ⟨documents, analyses, hframe⟩ := openDocument_frame s uri version text
      show (s.openDocument uri version text).tasks = _
      rw [hframe, schedule_tasks]
      rfl
  | changed uri version text =>
      show (s.changeDocument uri version text).tasks = _
      rw [newTasks]
      cases hopen : s.isOpen uri with
      | false =>
          rw [changeDocument_of_closed hopen]
          exact (List.append_nil _).symm
      | true =>
          obtain ⟨documents, analyses, hframe⟩ := changeDocument_frame hopen version text
          rw [hframe, schedule_tasks, Bool.true_and]
  | closed uri =>
      obtain ⟨documents, analyses, hframe⟩ := closeDocument_frame s uri
      show (s.closeDocument uri).2.tasks = _
      rw [hframe]
      exact (List.append_nil _).symm
  | begin name uri =>
      obtain ⟨documents, analyses, hframe⟩ := (works_request s uri).frame
      show (s.request uri).2.tasks = _
      rw [hframe]
      exact (List.append_nil _).symm
  | _ => cases h

/-- The task of an edit is for the version written, and waits for as long as the configuration says at
that moment. -/
theorem of_mem_newTasks {s : Store} {q : Request} {t : Task} (h : t ∈ s.newTasks q) :
    (∃ c, q.written t.uri = some c ∧ c.version = t.version) ∧ t.due = s.clock + q.delay s.config := by
  cases q with
  | opened uri version text | changed uri version text =>
      rw [newTasks] at h
      split at h
      · obtain rfl := List.mem_singleton.1 h
        exact ⟨⟨⟨version, text⟩, if_pos rfl, rfl⟩, rfl⟩
      · cases h
  | _ => cases h

theorem Passes.tasks_sublist {s s' : Store} {ps : List Publication} (h : Passes s ps s') :
    s'.tasks.Sublist s.tasks := by
  induction h with
  | rest => exact List.Sublist.refl _
  | noted _ _ _ _ _ ih => exact ih
  | worked _ hworks ih =>
      obtain ⟨documents, analyses, rfl⟩ := hworks.frame
      exact ih
  | settled _ ih => exact (tasks_settle_sublist _).trans ih

theorem mem_tasks_serve {s : Store} {q : Request} {t : Task} (h : t ∈ (s.serve q).store.tasks) :
    t ∈ s.tasks ∨ t ∈ s.newTasks q := by
  cases hq : q.passes with
  | true => exact Or.inl ((passes_serve s hq).tasks_sublist.subset h)
  | false =>
      rw [serve_tasks hq] at h
      exact List.mem_append.1 h

/-- Every task that waits after a session waited before it or is that of one of its edits. -/
theorem mem_tasks_after {s : Store} {qs : List Request} {t : Task} (h : t ∈ (s.after qs).tasks) :
    t ∈ s.tasks ∨
      ∃ front e back, qs = front ++ e :: back ∧ t ∈ (s.after front).newTasks e := by
  induction qs generalizing s with
  | nil => exact Or.inl h
  | cons q qs ih =>
      rcases ih h with h | ⟨front, e, back, rfl, he⟩
      · rcases mem_tasks_serve h with h | hq
        · exact Or.inl h
        · exact Or.inr ⟨[], q, qs, rfl, hq⟩
      · exact Or.inr ⟨q :: front, e, back, rfl, he⟩

/-- A request that edits a document and leaves it open has written what is there. -/
theorem written_of_contents {s : Store} {uri : String} {q : Request} (hq : q.edits uri = true)
    {c : Contents} (hc : (s.serve q).store.contents uri = some c) : q.written uri = some c := by
  cases q with
  | opened u version text =>
      obtain rfl := eq_of_beq hq
      replace hc : (s.openDocument u version text).contents u = some c := hc
      rw [openDocument_contents, Function.update_self] at hc
      rw [← hc]
      exact if_pos rfl
  | changed u version text =>
      obtain rfl := eq_of_beq hq
      replace hc : (s.changeDocument u version text).contents u = some c := hc
      rw [changeDocument_contents] at hc
      split at hc
      · rw [Function.update_self] at hc
        rw [← hc]
        exact if_pos rfl
      · rename_i hclosed
        rw [hc] at hclosed
        exact (hclosed rfl).elim
  | closed u =>
      obtain rfl := eq_of_beq hq
      replace hc : (s.closeDocument u).2.contents u = some c := hc
      rw [closeDocument_contents, Function.update_self] at hc
      cases hc
  | _ => cases hq

/-- A document that is open after a session is as its last edit has left it, or was not edited. -/
theorem last_edit {s : Store} (hs : s.Sound) {uri : String} {qs : List Request} {c : Contents}
    (hc : (s.after qs).contents uri = some c) :
    (s.contents uri = some c ∧ ∀ r ∈ qs, r.edits uri = false) ∨
      ∃ front e back, qs = front ++ e :: back ∧ e.written uri = some c ∧
        ∀ r ∈ back, r.edits uri = false := by
  induction qs generalizing s with
  | nil => exact Or.inl ⟨hc, fun r hr => (List.not_mem_nil hr).elim⟩
  | cons q qs ih =>
      rcases ih (sound_serve hs q) hc with ⟨hafter, hqs⟩ | ⟨front, e, back, rfl, he, hback⟩
      · cases hq : q.edits uri with
        | false =>
            rw [contents_serve hs hq] at hafter
            exact Or.inl ⟨hafter, List.forall_mem_cons.2 ⟨hq, hqs⟩⟩
        | true => exact Or.inr ⟨[], q, qs, rfl, written_of_contents hq hafter, hqs⟩
      · exact Or.inr ⟨q :: front, e, back, rfl, he, hback⟩

/-! ### How often a version is published -/

/-- A task publishes no more versions than it waits for. -/
theorem publishedVersions_announcement (uri : String) (written : Option Contents) (t : Task) :
    (publishedVersions uri (announcement written t)).Sublist (awaitedVersions uri [t]) := by
  cases written with
  | none => exact List.nil_sublist _
  | some c =>
      rw [announcement]
      split
      · split
        · exact List.nil_sublist _
        · by_cases huri : t.uri = uri <;> simp [publishedVersions, awaitedVersions, huri]
      · exact List.nil_sublist _

theorem publishedVersions_announcements (uri : String) (written : String → Option Contents)
    (ts : List Task) :
    (publishedVersions uri (ts.flatMap fun t => announcement (written t.uri) t)).Sublist
      (awaitedVersions uri ts) := by
  induction ts with
  | nil => exact List.Sublist.refl _
  | cons t ts ih =>
      rw [List.flatMap_cons, publishedVersions_append]
      show List.Sublist _ (awaitedVersions uri ([t] ++ ts))
      rw [awaitedVersions_append]
      exact (publishedVersions_announcement uri (written t.uri) t).append ih

/-- A task that publishes does not wait any more. -/
theorem count_settle {s : Store} (hs : s.Sound) (uri : String) (v : Int) :
    (publishedVersions uri s.settle.1).count v + (awaitedVersions uri s.settle.2.tasks).count v
      ≤ (awaitedVersions uri s.tasks).count v := by
  have hpublished := (publishedVersions_announcements uri s.contents
    (s.tasks.filter fun t => decide (t.due ≤ s.clock))).count_le v
  have hparts : (awaitedVersions uri s.tasks).count v
      = (awaitedVersions uri (s.tasks.filter fun t => decide (t.due ≤ s.clock))).count v
        + (awaitedVersions uri (s.tasks.filter fun t => !decide (t.due ≤ s.clock))).count v := by
    rw [← List.count_append, ← awaitedVersions_append]
    exact ((List.filter_append_perm _ s.tasks).symm.filterMap _).count_eq v
  rw [settle_published hs, settle_tasks]
  omega

theorem count_passes {s s' : Store} {ps : List Publication} (h : Passes s ps s') (hs : s.Sound)
    (uri : String) (v : Int) :
    (publishedVersions uri ps).count v + (awaitedVersions uri s'.tasks).count v
      ≤ (awaitedVersions uri s.tasks).count v := by
  induction h with
  | rest => exact (Nat.zero_add _).le
  | noted _ _ _ _ _ ih => exact ih
  | worked _ hworks ih =>
      obtain ⟨documents, analyses, rfl⟩ := hworks.frame
      exact ih
  | settled h ih =>
      have hsettle := count_settle (h.sound hs) uri v
      rw [publishedVersions_append, List.count_append]
      omega

/-- A request schedules nothing but the version that it writes. -/
theorem awaitedVersions_newTasks (s : Store) (q : Request) (uri : String) :
    (awaitedVersions uri (s.newTasks q)).Sublist (writtenVersions uri [q]) := by
  cases q with
  | opened u version text | changed u version text =>
      rw [newTasks]
      split
      · by_cases huri : u = uri <;> simp [awaitedVersions, writtenVersions, Request.written, huri]
      · exact List.nil_sublist _
  | _ => exact List.nil_sublist _

/-- A request that edits a document or begins a query publishes no version. -/
theorem publishedVersions_serve_eq_nil {s : Store} {q : Request} (h : q.passes = false)
    (uri : String) : publishedVersions uri (s.serve q).published = [] := by
  cases q with
  | opened _ _ _ | changed _ _ _ | begin _ _ => rfl
  | closed u =>
      refine List.filterMap_eq_nil_iff.2 fun p hp => ?_
      rw [eq_of_mem_closeDocument hp]
      exact ite_self none
  | _ => cases h

/-- Only an edit makes a version wait, and only the version that it writes. -/
theorem count_serve {s : Store} (hs : s.Sound) (q : Request) (uri : String) (v : Int) :
    (publishedVersions uri (s.serve q).published).count v
        + (awaitedVersions uri (s.serve q).store.tasks).count v
      ≤ (awaitedVersions uri s.tasks).count v + (writtenVersions uri [q]).count v := by
  cases hq : q.passes with
  | true =>
      have hcount := count_passes (passes_serve s hq) hs uri v
      omega
  | false =>
      have hnew := (awaitedVersions_newTasks s q uri).count_le v
      rw [publishedVersions_serve_eq_nil hq, serve_tasks hq, awaitedVersions_append, List.count_append,
        List.count_nil]
      omega

/-- In a whole session, no version is published or waiting more often than it was written. -/
theorem count_after {s : Store} (hs : s.Sound) (qs : List Request) (uri : String) (v : Int) :
    (publishedVersions uri (s.publications qs)).count v
        + (awaitedVersions uri (s.after qs).tasks).count v
      ≤ (awaitedVersions uri s.tasks).count v + (writtenVersions uri qs).count v := by
  induction qs generalizing s with
  | nil => exact (Nat.add_comm _ _).le
  | cons q qs ih =>
      have hfirst := count_serve hs q uri v
      have hrest := ih (sound_serve hs q)
      rw [publications_cons, publishedVersions_append, List.count_append, writtenVersions_cons,
        List.count_append]
      show _ + (awaitedVersions uri ((s.serve q).store.after qs).tasks).count v ≤ _
      omega

/-! ### Sessions -/

theorem tasks_of_create {config : Config} {publishes : Bool} {s : Store}
    (h : create config publishes = .ok s) : s.tasks = [] := by
  rw [create] at h
  split at h
  · cases h
    rfl
  · cases h

theorem contents_of_create {config : Config} {publishes : Bool} {s : Store}
    (h : create config publishes = .ok s) (uri : String) : s.contents uri = none := by
  rw [(follows_of_create h).contents]
  rfl

/-- Whatever is published with a version belongs to the last edit of the document. -/
theorem edit_of_published {config : Config} {s : Store} (hcreate : create config true = .ok s)
    {qs : List Request} {q : Request} {p : Publication} {v : Int}
    (hp : p ∈ ((s.after qs).serve q).published) (hv : p.version = some v) :
    q.edits p.uri = false ∧ ∃ front e back c, qs = front ++ e :: back ∧ e.written p.uri = some c ∧
      c.version = v ∧ (Model.parse p.uri c.text).diagnostics = .ok p.diagnostics ∧
      ∀ r ∈ back, r.edits p.uri = false := by
  have hs := (follows_of_create hcreate).sound
  obtain ⟨hq, c, hc, hversion, hds⟩ := reports_serve (sound_after hs qs) hp hv
  rcases last_edit hs hc with ⟨hopen, -⟩ | ⟨front, e, back, hqs, he, hback⟩
  · rw [contents_of_create hcreate] at hopen
    cases hopen
  · exact ⟨hq, front, e, back, c, hqs, he, Option.some.inj (hversion.symm.trans hv), hds, hback⟩

/-- A request publishes nothing with a version for a document, or nothing but the version that was
written last. -/
theorem publishedVersions_serve {config : Config} {s : Store} (hcreate : create config true = .ok s)
    (qs : List Request) (q : Request) (uri : String) :
    publishedVersions uri ((s.after qs).serve q).published = [] ∨
      ∃ vs v n, writtenVersions uri qs = vs ++ [v] ∧ writtenVersions uri [q] = [] ∧
        publishedVersions uri ((s.after qs).serve q).published = List.replicate (n + 1) v := by
  have hsound := sound_after (follows_of_create hcreate).sound qs
  cases hnow : publishedVersions uri ((s.after qs).serve q).published with
  | nil => exact Or.inl rfl
  | cons v vs =>
      obtain ⟨p, hp, rfl, hversion⟩ := mem_publishedVersions.1 (hnow ▸ List.mem_cons_self)
      obtain ⟨hq, front, e, back, c, hqs, he, rfl, -, hback⟩ := edit_of_published hcreate hp hversion
      obtain ⟨-, c', hc', hcurrent, -⟩ := reports_serve hsound hp hversion
      refine Or.inr ⟨writtenVersions p.uri front, c.version, vs.length, ?_, ?_, ?_⟩
      · rw [hqs, writtenVersions_append, writtenVersions_cons, writtenVersions_of_written he,
          writtenVersions_of_not_edits hback, List.append_nil]
      · exact writtenVersions_of_not_edits (List.forall_mem_singleton.2 hq)
      · -- Whatever else is published for the document now has its version, too.
        refine List.eq_replicate_iff.2 ⟨rfl, fun w hw => ?_⟩
        obtain ⟨p', hp', huri, hw'⟩ := mem_publishedVersions.1 (hnow ▸ hw)
        obtain ⟨-, c'', hc'', hother, -⟩ := reports_serve hsound hp' hw'
        rw [huri, hc'] at hc''
        obtain rfl := Option.some.inj hc''
        exact Option.some.inj (hw'.symm.trans (hother.trans (hcurrent.symm.trans hversion)))

/-- If no version is written twice, then none is published twice. -/
theorem count_publishedVersions {config : Config} {s : Store} (hcreate : create config true = .ok s)
    {uri : String} {qs : List Request} (hdistinct : (writtenVersions uri qs).Nodup) (v : Int) :
    (publishedVersions uri (s.publications qs)).count v ≤ 1 := by
  have hcount := count_after (follows_of_create hcreate).sound qs uri v
  rw [tasks_of_create hcreate] at hcount
  have hwritten := List.nodup_iff_count_le_one.1 hdistinct v
  have hnone : (awaitedVersions uri []).count v = 0 := rfl
  omega

/-- What is part of a list but has not its last element is part of the rest. -/
theorem sublist_of_append_singleton {vs ws : List Int} {v : Int} (h : vs.Sublist (ws ++ [v]))
    (hv : v ∉ vs) : vs.Sublist ws := by
  obtain ⟨front, back, rfl, hfront, hback⟩ := List.sublist_append_iff.1 h
  rcases List.sublist_singleton.1 hback with rfl | rfl
  · rw [List.append_nil]
    exact hfront
  · exact (hv (List.mem_append_right front List.mem_cons_self)).elim

/-- If no version is written twice, then the versions are published in the order in which they were
written. -/
theorem publishedVersions_sublist {config : Config} {s : Store} (hcreate : create config true = .ok s)
    {uri : String} {qs : List Request} (hdistinct : (writtenVersions uri qs).Nodup) :
    (publishedVersions uri (s.publications qs)).Sublist (writtenVersions uri qs) := by
  induction qs using List.reverseRecOn with
  | nil => exact List.nil_sublist _
  | append_singleton qs q ih =>
      have honce := count_publishedVersions hcreate hdistinct
      rw [publications_snoc, publishedVersions_append] at honce ⊢
      rw [writtenVersions_append] at hdistinct ⊢
      have hbefore := ih (List.nodup_append.1 hdistinct).1
      rcases publishedVersions_serve hcreate qs q uri with hnow | ⟨vs, v, n, hwritten, hq, hnow⟩
      · rw [hnow, List.append_nil]
        exact hbefore.trans (List.sublist_append_left _ _)
      · -- The version written last is published now, so only now, and it has not been before.
        have hcount := honce v
        rw [hnow, List.count_append, List.count_replicate_self] at hcount
        obtain rfl : n = 0 := by omega
        have hnew : v ∉ publishedVersions uri (s.publications qs) :=
          List.count_eq_zero.1 (by omega)
        rw [hwritten] at hbefore
        rw [hnow, hwritten, hq, List.append_nil]
        exact (sublist_of_append_singleton hbefore hnew).append (List.Sublist.refl _)

/-- **Diagnostics are debounced.**  Take any session with a store that publishes, and a document no two
of whose open or change requests have the same version.  Then the versions published for it are among
the versions written, in the order of the edits and each at most once.  Whatever is published for the
document with a version, at whatever moment, is the report of an edit that came before: it has the
version and the diagnostics of that edit, comes no earlier than the time of the edit and the delay of
an open or change request in the configuration of that moment, and no request after the edit, up to
and including the one that publishes, opens, changes or closes the document. -/
theorem publications_debounced {config : Config} {s : Store} (hcreate : create config true = .ok s)
    (qs : List Request) (uri : String) (hdistinct : (writtenVersions uri qs).Nodup) :
    (publishedVersions uri (s.publications qs)).Sublist (writtenVersions uri qs) ∧
    (publishedVersions uri (s.publications qs)).Nodup ∧
    ∀ (before : List Request) (q : Request) (rest : List Request), qs = before ++ q :: rest →
      ((s.after before).timed q).map Prod.snd = ((s.after before).serve q).published ∧
      ∀ time p v, (time, p) ∈ (s.after before).timed q → p.uri = uri → p.version = some v →
        ∃ front e back c, before = front ++ e :: back ∧ e.written uri = some c ∧ c.version = v ∧
          (Model.parse uri c.text).diagnostics = .ok p.diagnostics ∧
          (s.after front).clock + e.delay (s.after front).config ≤ time ∧
          ∀ r ∈ back ++ [q], r.edits uri = false := by
  have hordered := publishedVersions_sublist hcreate hdistinct
  refine ⟨hordered, hordered.nodup hdistinct, ?_⟩
  rintro before q rest rfl
  refine ⟨timed_published _ q, ?_⟩
  rintro time p v hp rfl hv
  obtain ⟨hq, front, e, back, c, rfl, he, hversion, hds, hback⟩ :=
    edit_of_published hcreate (published_of_timed hp) hv
  refine ⟨front, e, back, c, rfl, he, hversion, hds, ?_, ?_⟩
  · have hsound := sound_after (follows_of_create hcreate).sound (front ++ e :: back)
    obtain ⟨t, ht, huri, htask, hdue⟩ := task_of_timed hsound hp hv
    rcases mem_tasks_after ht with ht | ⟨front', e', back', hsplit, hnew⟩
    · rw [tasks_of_create hcreate] at ht
      cases ht
    · -- The task was scheduled by an edit with the same version, so by this very edit.
      obtain ⟨⟨c', he', hc'⟩, hwait⟩ := of_mem_newTasks hnew
      rw [huri] at he'
      rw [writtenVersions_append] at hdistinct
      obtain ⟨rfl, rfl, rfl⟩ := edit_unique hsplit (List.nodup_append.1 hdistinct).1 he he'
        (by rw [hversion, hc', htask])
      rw [← hwait]
      exact hdue
  · intro r hr
    rcases List.mem_append.1 hr with hr | hr
    · exact hback r hr
    · rw [List.mem_singleton.1 hr]
      exact hq

/-- A document whose version goes down while the delay of changes gets shorter: the change falls due
first, and the task of the opening finds another version. -/
theorem publications_debounced_shorter_delay :
    let s := ofConfig .standard true
    let before : List Request := [.opened "a" 5 "x = 1",
      .settings (.object [("diagnostics", .object [("changeDelayMs", .integer 20)])]),
      .changed "a" 3 "end"]
    let session := before ++ [.advance 30, .advance 300]
    let shown : Publication :=
      ⟨"a", some 3, [⟨⟨⟨0, 0⟩, ⟨0, 3⟩⟩, "Unmatched end keyword", .error, "end"⟩]⟩
    create .standard true = .ok s ∧ writtenVersions "a" session = [5, 3] ∧
      publishedVersions "a" (s.publications session) = [3] ∧
      (publishedVersions "a" (s.publications session)).Sublist (writtenVersions "a" session) ∧
      (s.after before).timed (.advance 30) = [(30, shown)] ∧
      ∃ front e back c, before = front ++ e :: back ∧ e.written "a" = some c ∧ c.version = 3 ∧
        (Model.parse "a" c.text).diagnostics = .ok shown.diagnostics ∧
        (s.after front).clock + e.delay (s.after front).config ≤ 30 ∧
        ∀ r ∈ back ++ [.advance 30], r.edits "a" = false := by
  intro s before session shown
  have hcreate : create .standard true = .ok s := rfl
  have hwritten : writtenVersions "a" session = [5, 3] := rfl
  have hdistinct : (writtenVersions "a" session).Nodup := by decide
  obtain ⟨hordered, -, hedit⟩ := publications_debounced hcreate session "a" hdistinct
  have htimed : (s.after before).timed (.advance 30) = [(30, shown)] := by decide +kernel
  refine ⟨hcreate, hwritten, by decide +kernel, hordered, htimed, ?_⟩
  refine (hedit before (.advance 30) [.advance 300] rfl).2 30 shown 3 ?_ rfl rfl
  rw [htimed]
  exact List.mem_singleton_self _

end Store

end RexxService
