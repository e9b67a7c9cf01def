import RexxService.Proofs.Store.Reference

/-!
# What requests do to a store

Every request edits a document, begins a query, or passes by.  A request that passes by takes notes,
lets analyses run and settles what is due, in some order; it leaves the documents and the tickets
alone.  What such requests do is said once, so that a law about all requests needs to look at the edits
and at the beginning of a query, and at nothing else.

* **`Passes s ps s'`** — a store got from `s` to `s'` in that way, and published `ps` meanwhile;
* **`passes_serve`** — what requests that pass by do;
* **`serve_frame`** — what no request touches;
* **`sound_serve`**, **`contents_serve`** — soundness, and what clients have written;
* **`getElem?_run`** — each reply of a session belongs to its request at its own moment.
-/

namespace RexxService

/-- Whether a request neither edits a document nor begins a query. -/
def Request.passes : Request → Bool
  | .opened _ _ _ | .changed _ _ _ | .closed _ | .begin _ _ => false
  | _ => true

namespace Store

/-- A store got from one state to another, and published something meanwhile, with no document edited
and no query begun. -/
inductive Passes (s : Store) : List Publication → Store → Prop where
  | rest : Passes s [] s
  | noted {ps : List Publication} {s' : Store} (h : Passes s ps s') (config : Config) (pool : Pool)
      (clock : Nat) (kept : Table Handout) :
      Passes s ps { s' with config := config, pool := pool, clock := clock, kept := kept }
  | worked {ps : List Publication} {s' s'' : Store} (h : Passes s ps s') (hworks : Works s' s'') :
      Passes s ps s''
  | settled {ps : List Publication} {s' : Store} (h : Passes s ps s') :
      Passes s (ps ++ s'.settle.1) s'.settle.2

namespace Passes

variable {s s' : Store} {ps : List Publication}

theorem frame (h : Passes s ps s') : s'.publishes = s.publishes ∧ s'.tickets = s.tickets := by
  induction h with
  | rest => exact ⟨rfl, rfl⟩
  | noted _ _ _ _ _ ih => exact ih
  | worked _ hworks ih =>
      obtain ⟨documents, analyses, rfl⟩ := hworks.frame
      exact ih
  | settled _ ih =>
      rw [settle_publishes, settle_tickets]
      exact ih

theorem sound (h : Passes s ps s') (hs : s.Sound) : s'.Sound := by
  induction h with
  | rest => exact hs
  | noted _ _ _ _ _ ih => exact ih
  | worked _ hworks ih => exact hworks.steady.sound ih
  | settled _ ih => exact (steady_settle _).sound ih

end Passes

/-! ### One request -/

theorem passes_serve (s : Store) {q : Request} (h : q.passes = true) :
    Passes s (s.serve q).published (s.serve q).store := by
  have hsettled : Passes s s.settle.1 s.settle.2 := Passes.rest.settled
  cases q with
  | opened _ _ _ | changed _ _ _ | closed _ | begin _ _ => cases h
  | settings value =>
      obtain ⟨config, pool, hframe⟩ := applySettings_frame s value
      show Passes s [] (s.applySettings value).2
      rw [hframe]
      exact Passes.rest.noted config pool s.clock s.kept
  | model uri name =>
      obtain ⟨kept, hframe⟩ := keepOutcome_frame (s.settle.2.awaitModel uri).2 name
        (s.settle.2.awaitModel uri).1
      show Passes s s.settle.1 ((s.settle.2.awaitModel uri).2.keepOutcome name
        (s.settle.2.awaitModel uri).1)
      rw [hframe]
      exact (hsettled.worked (works_awaitModel _ uri)).noted _ _ _ kept
  | completion uri p => exact hsettled.worked (works_completion _ uri p)
  | symbols uri => exact hsettled.worked (works_symbols _ uri)
  | diagnostics uri => exact hsettled.worked (works_diagnostics _ uri)
  | finish name => exact hsettled
  | advance ms => exact (hsettled.noted _ _ (s.settle.2.clock + ms) _).settled
  | _ => exact .rest

/-- No request touches the publisher, and none but a query that is begun touches a ticket. -/
theorem serve_frame (s : Store) (q : Request) :
    (s.serve q).store.publishes = s.publishes ∧ (s.serve q).store.tickets = match q with
      | .begin name uri => s.tickets.put name (s.request uri).1
      | _ => s.tickets := by
  have hpasses (h : q.passes = true) := (passes_serve s h).frame
  cases q with
  | opened uri version text =>
      obtain ⟨documents, analyses, hframe⟩ := openDocument_frame s uri version text
      obtain ⟨tasks, hschedule⟩ := schedule_frame
        { s with documents := documents, analyses := analyses } uri version s.config.openDelay
      simp only [serve, hframe, hschedule, and_self]
  | changed uri version text =>
      cases hopen : s.isOpen uri with
      | false => simp only [serve, changeDocument_of_closed hopen, and_self]
      | true =>
          obtain ⟨documents, analyses, hframe⟩ := changeDocument_frame hopen version text
          obtain ⟨tasks, hschedule⟩ := schedule_frame
            { s with documents := documents, analyses := analyses } uri version s.config.changeDelay
          simp only [serve, hframe, hschedule, and_self]
  | closed uri =>
      obtain ⟨documents, analyses, hframe⟩ := closeDocument_frame s uri
      simp only [serve, hframe, and_self]
  | begin name uri =>
      obtain ⟨documents, analyses, hframe⟩ := (works_request s uri).frame
      simp only [serve, beginQuery, hframe, and_self]
  | _ => exact hpasses rfl

theorem sound_serve {s : Store} (hs : s.Sound) (q : Request) : (s.serve q).store.Sound :=
  (follows_serve (r := ⟨s.contents, s.config⟩) ⟨hs, rfl, rfl⟩ q).sound

/-- A request that does not edit a document leaves what a client has written there. -/
theorem contents_serve {s : Store} (hs : s.Sound) {uri : String} {q : Request}
    (h : q.edits uri = false) : (s.serve q).store.contents uri = s.contents uri := by
  have hfollows := follows_serve (r := ⟨s.contents, s.config⟩) ⟨hs, rfl, rfl⟩ q
  rw [hfollows.contents]
  exact Reference.step_documents_of_not_edits _ h

/-! ### Whole sessions -/

theorem after_append (s : Store) (qs rs : List Request) :
    s.after (qs ++ rs) = (s.after qs).after rs := List.foldl_append

theorem sound_after {s : Store} (hs : s.Sound) (qs : List Request) : (s.after qs).Sound := by
  induction qs generalizing s with
  | nil => exact hs
  | cons q qs ih => exact ih (sound_serve hs q)

theorem contents_after {s : Store} (hs : s.Sound) {uri : String} {qs : List Request}
    (h : ∀ q ∈ qs, q.edits uri = false) : (s.after qs).contents uri = s.contents uri := by
  induction qs generalizing s with
  | nil => rfl
  | cons q qs ih =>
      have hq := contents_serve hs (h q List.mem_cons_self)
      exact (ih (sound_serve hs q) fun r hr => h r (List.mem_cons_of_mem q hr)).trans hq

/-- The replies of a session are those to its requests, each at its own moment. -/
theorem getElem?_run (s : Store) (qs : List Request) (i : Nat) :
    (s.run qs)[i]? = qs[i]?.map (s.after (qs.take i)).serve := by
  induction qs generalizing s i with
  | nil => rfl
  | cons q qs ih =>
      cases i with
      | zero => rfl
      | succ i => exact ih (s.serve q).store i

end Store

end RexxService
