import RexxService.Proofs.Store.Requests

/-!
# The lifetime of an analysis

An analysis is wanted from the moment it is started until an edit of its document takes effect, and
never again after that.

* **`Lasts`** — analyses are never lost, never given another text, never wanted again once they are
  out of date, and keep the models they have made;
* **`Spares uri s s'`** — what a request does that leaves a document alone: the analysis in use for it
  stays in use;
* **`Replaces uri s s'`** — what an edit does that takes effect: the analysis in use is put out of
  date before anything else happens;
* **`spares_serve`**, **`replaces_serve`** — every request does one or the other;
* **`current_after`**, **`outdated_after`** — so the requests of a whole session leave an analysis in
  use as long as no edit takes effect, and out of date as soon as one does.
-/

namespace RexxService

/-! ### Analyses later on -/

/-- What an analysis has become: it is of the same text, out of date if it was, and has kept its
model if it had one. -/
structure Analysis.Becomes (a b : Analysis) : Prop where
  uri : b.uri = a.uri
  text : b.text = a.text
  stale : a.state = .stale → b.state = .stale
  result : ∀ m, a.result = some m → b.result = some m

namespace Analysis.Becomes

theorem refl (a : Analysis) : a.Becomes a := ⟨rfl, rfl, id, fun _ => id⟩

theorem trans {a b c : Analysis} (h : a.Becomes b) (h' : b.Becomes c) : a.Becomes c where
  uri := h'.uri.trans h.uri
  text := h'.text.trans h.text
  stale := fun hstale => h'.stale (h.stale hstale)
  result := fun m hm => h'.result m (h.result m hm)

theorem run (a : Analysis) : a.Becomes a.run := by
  refine ⟨a.run_uri, a.run_text, fun hstale => a.run_state.trans hstale, fun m hm => ?_⟩
  rw [Analysis.run, hm]
  cases a.state <;> exact hm

theorem cancel (a : Analysis) : a.Becomes a.cancel := ⟨rfl, rfl, fun _ => rfl, fun _ => id⟩

end Analysis.Becomes

/-- Every analysis is still there, under its number. -/
def Lasts (before after : Array Analysis) : Prop :=
  ∀ (n : Nat) (a : Analysis), before[n]? = some a → ∃ b, after[n]? = some b ∧ a.Becomes b

namespace Lasts

theorem refl (analyses : Array Analysis) : Lasts analyses analyses :=
  fun _ a ha => ⟨a, ha, .refl a⟩

theorem trans {before between after : Array Analysis} (h : Lasts before between)
    (h' : Lasts between after) : Lasts before after := by
  intro n a ha
  obtain ⟨b, hb, hab⟩ := h n a ha
  obtain ⟨c, hc, hbc⟩ := h' n b hb
  exact ⟨c, hc, hab.trans hbc⟩

/-- Some of the analyses may have become something else. -/
theorem of_map {before after : Array Analysis} {f : Analysis → Analysis}
    (hf : ∀ a : Analysis, a.Becomes (f a))
    (h : ∀ n : Nat, after[n]? = before[n]? ∨ after[n]? = before[n]?.map f) : Lasts before after := by
  intro n a ha
  rcases h n with heq | heq
  · exact ⟨a, heq.trans ha, .refl a⟩
  · refine ⟨f a, ?_, hf a⟩
    rw [heq, ha]
    rfl

/-- A new analysis takes no number away. -/
theorem push (analyses : Array Analysis) (a : Analysis) : Lasts analyses (analyses.push a) := by
  intro n b hb
  have hlt : n < analyses.size := (Array.getElem?_eq_some_iff.1 hb).1
  refine ⟨b, ?_, .refl b⟩
  rw [Array.getElem?_push, if_neg (by omega), hb]

end Lasts

namespace Store

def currentAnalysis (s : Store) (uri : String) : Option Nat := analysisAt s.documents.get? uri

/-- The analysis with a number has been put out of date. -/
def Outdated (s : Store) (n : Nat) : Prop := ∃ a, s.analyses[n]? = some a ∧ a.state = .stale

theorem Outdated.of_lasts {s s' : Store} {n : Nat} (h : s.Outdated n)
    (hlasts : Lasts s.analyses s'.analyses) : s'.Outdated n := by
  obtain ⟨a, ha, hstale⟩ := h
  obtain ⟨b, hb, hab⟩ := hlasts n a ha
  exact ⟨b, hb, hab.stale hstale⟩

/-- An analysis is wanted exactly as long as it is in use. -/
theorem fresh_iff_current {s : Store} (hs : s.Sound) {n : Nat} {a : Analysis}
    (ha : s.analyses[n]? = some a) : a.state = .fresh ↔ s.currentAnalysis a.uri = some n := by
  constructor
  · intro hfresh
    exact analysisAt_eq_some.2 (hs.wanted n a ha hfresh)
  · intro hn
    obtain ⟨doc, hdoc, hdn⟩ := analysisAt_eq_some.1 hn
    obtain ⟨b, hb, -, -, hfresh⟩ := hs.current a.uri doc n hdoc hdn
    obtain rfl := Option.some.inj (ha.symm.trans hb)
    exact hfresh

/-- The analysis in use for a document is an analysis of its text, and wanted. -/
theorem analysis_of_current {s : Store} (hs : s.Sound) {uri : String} {n : Nat}
    (hn : s.currentAnalysis uri = some n) :
    ∃ a, s.analyses[n]? = some a ∧ a.uri = uri ∧ s.text uri = some a.text ∧ a.state = .fresh := by
  obtain ⟨doc, hdoc, hdn⟩ := analysisAt_eq_some.1 hn
  obtain ⟨a, ha, huri, htext, hfresh⟩ := hs.current uri doc n hdoc hdn
  refine ⟨a, ha, huri, ?_, hfresh⟩
  rw [text, hdoc, htext]
  rfl

theorem isOpen_of_current {s : Store} {uri : String} {n : Nat}
    (hn : s.currentAnalysis uri = some n) : s.isOpen uri = true := by
  obtain ⟨doc, hdoc, -⟩ := analysisAt_eq_some.1 hn
  rw [isOpen, hdoc]
  rfl

theorem text_eq (s : Store) (uri : String) : s.text uri = (s.contents uri).map (·.text) := by
  rw [contents, Option.map_map]
  rfl

/-! ### Leaving a document alone -/

/-- The analysis in use for a document stays in use. -/
structure Spares (uri : String) (s s' : Store) : Prop where
  lasts : Lasts s.analyses s'.analyses
  current : ∀ n, s.currentAnalysis uri = some n → s'.currentAnalysis uri = some n

namespace Spares

variable {uri : String}

theorem refl (s : Store) : Spares uri s s := ⟨.refl _, fun _ => id⟩

theorem trans {s s' s'' : Store} (h : Spares uri s s') (h' : Spares uri s' s'') :
    Spares uri s s'' :=
  ⟨h.lasts.trans h'.lasts, fun n hn => h'.current n (h.current n hn)⟩

end Spares

/-- A document that has no analysis may get one; no other is touched. -/
theorem Works.spares {s s' : Store} (h : Works s s') (uri : String) : Spares uri s s' := by
  induction h with
  | rest s => exact .refl s
  | ran h => exact ⟨Lasts.of_map Analysis.Becomes.run h, fun _ => id⟩
  | @started s other doc hdoc hidle =>
      rw [ensure.eq_def, hidle]
      refine ⟨Lasts.push _ _, fun n hn => ?_⟩
      have hne : uri ≠ other := by
        rintro rfl
        obtain ⟨doc', hdoc', hn'⟩ := analysisAt_eq_some.1 hn
        obtain rfl := Option.some.inj (hdoc.symm.trans hdoc')
        rw [hidle] at hn'
        cases hn'
      show ((s.documents.put other _).get? uri).bind _ = _
      rw [Table.get?_put, if_neg hne]
      exact hn
  | trans _ _ ih ih' => exact ih.trans ih'

theorem spares_settle (s : Store) (uri : String) : Spares uri s s.settle.2 := by
  have hworks := (works_settle s).spares uri
  exact ⟨hworks.lasts, hworks.current⟩

theorem Passes.spares {s s' : Store} {ps : List Publication} (h : Passes s ps s') (uri : String) :
    Spares uri s s' := by
  induction h with
  | rest => exact .refl s
  | noted _ _ _ _ _ ih => exact ⟨ih.lasts, ih.current⟩
  | worked _ hworks ih => exact ih.trans (hworks.spares uri)
  | settled _ ih => exact ih.trans (spares_settle _ uri)

/-! ### Replacing a document -/

/-- The analysis in use for a document is put out of date first, and no other document is touched. -/
structure Replaces (uri : String) (s s' : Store) : Prop where
  lasts : Lasts (s.invalidate uri).analyses s'.analyses
  elsewhere : ∀ other, other ≠ uri → s'.documents.get? other = s.documents.get? other

theorem lasts_invalidate (s : Store) (uri : String) :
    Lasts s.analyses (s.invalidate uri).analyses := by
  refine Lasts.of_map Analysis.Becomes.cancel fun n => ?_
  rw [invalidate_analyses]
  split
  · exact Or.inr rfl
  · exact Or.inl rfl

namespace Replaces

variable {uri : String} {s s' : Store}

theorem lasts_all (h : Replaces uri s s') : Lasts s.analyses s'.analyses :=
  (lasts_invalidate s uri).trans h.lasts

theorem spares (h : Replaces uri s s') {other : String} (hne : other ≠ uri) :
    Spares other s s' := by
  refine ⟨h.lasts_all, fun n hn => ?_⟩
  rw [currentAnalysis, analysisAt, h.elsewhere other hne]
  exact hn

theorem outdated (h : Replaces uri s s') (hs : s.Sound) {n : Nat}
    (hn : s.currentAnalysis uri = some n) : s'.Outdated n := by
  obtain ⟨a, ha, -⟩ := analysis_of_current hs hn
  have hat : analysisAt s.documents.get? uri = some n := hn
  have hcancelled : (s.invalidate uri).Outdated n := by
    refine ⟨a.cancel, ?_, rfl⟩
    rw [invalidate_analyses, if_pos hat, ha]
    rfl
  exact hcancelled.of_lasts h.lasts

end Replaces

theorem replaces_openDocument (s : Store) (uri : String) (version : Int) (text : String) :
    Replaces uri s (s.openDocument uri version text) := by
  obtain ⟨tasks, htasks⟩ := schedule_frame (s.opened uri version text) uri version
    (s.opened uri version text).config.openDelay
  rw [openDocument_eq, htasks]
  refine ⟨Lasts.push _ _, fun other hne => ?_⟩
  show ((s.invalidate uri).documents.put uri _).get? other = _
  rw [Table.get?_put, if_neg hne, invalidate_documents]

theorem replaces_changeDocument {s : Store} {uri : String} (hopen : s.isOpen uri = true)
    (version : Int) (text : String) : Replaces uri s (s.changeDocument uri version text) := by
  obtain ⟨tasks, htasks⟩ := schedule_frame (s.changed uri version text) uri version
    (s.changed uri version text).config.changeDelay
  rw [changeDocument_eq, if_pos hopen, htasks]
  refine ⟨Lasts.refl _, fun other hne => ?_⟩
  show ((s.invalidate uri).documents.put uri _).get? other = _
  rw [Table.get?_put, if_neg hne, invalidate_documents]

theorem replaces_closeDocument (s : Store) (uri : String) :
    Replaces uri s (s.closeDocument uri).2 := by
  refine ⟨Lasts.refl _, fun other hne => ?_⟩
  show ((s.invalidate uri).documents.erase uri).get? other = _
  rw [Table.get?_erase, if_neg hne, invalidate_documents]

/-! ### One request -/

/-- Whether a request takes effect on a document: it opens it, or changes or closes it while it is
open. -/
def takesEffect (s : Store) (uri : String) : Request → Bool
  | .opened u _ _ => u == uri
  | .changed u _ _ | .closed u => u == uri && s.isOpen uri
  | _ => false

/-- An edit that takes effect puts the analysis in use out of date. -/
theorem replaces_serve {s : Store} {uri : String} {q : Request} (h : s.takesEffect uri q = true) :
    Replaces uri s (s.serve q).store := by
  cases q with
  | opened u version text =>
      obtain rfl := eq_of_beq h
      exact replaces_openDocument s u version text
  | changed u version text =>
      obtain ⟨hu, hopen⟩ := Bool.and_eq_true_iff.1 h
      obtain rfl := eq_of_beq hu
      exact replaces_changeDocument hopen version text
  | closed u =>
      obtain ⟨hu, -⟩ := Bool.and_eq_true_iff.1 h
      obtain rfl := eq_of_beq hu
      exact replaces_closeDocument s u
  | _ => cases h

/-- Every other request leaves it in use. -/
theorem spares_serve {s : Store} {uri : String} {q : Request} (h : s.takesEffect uri q = false) :
    Spares uri s (s.serve q).store := by
  have hpasses (h : q.passes = true) := (passes_serve s h).spares uri
  cases q with
  | opened u version text =>
      have hne : uri ≠ u := by
        rintro rfl
        simp [takesEffect] at h
      exact (replaces_openDocument s u version text).spares hne
  | changed u version text =>
      show Spares uri s (s.changeDocument u version text)
      cases hopen : s.isOpen u with
      | false =>
          rw [changeDocument_eq, hopen]
          exact .refl s
      | true =>
          have hne : uri ≠ u := by
            rintro rfl
            simp [takesEffect, hopen] at h
          exact (replaces_changeDocument hopen version text).spares hne
  | closed u =>
      by_cases hne : uri = u
      · -- Nothing is in use for a document that is not open.
        subst hne
        refine ⟨(replaces_closeDocument s uri).lasts_all, fun n hn => ?_⟩
        simp [takesEffect, isOpen_of_current hn] at h
      · exact (replaces_closeDocument s u).spares hne
  | begin name u =>
      have hworks := (works_request s u).spares uri
      exact ⟨hworks.lasts, hworks.current⟩
  | _ => exact hpasses rfl

theorem lasts_serve (s : Store) (q : Request) : Lasts s.analyses (s.serve q).store.analyses := by
  -- Any document will do: what becomes of the analyses does not depend on the one that is looked at.
  cases h : s.takesEffect "" q with
  | true => exact (replaces_serve h).lasts_all
  | false => exact (spares_serve h).lasts

/-! ### Whole sessions -/

theorem lasts_after (s : Store) (qs : List Request) : Lasts s.analyses (s.after qs).analyses := by
  induction qs generalizing s with
  | nil => exact .refl _
  | cons q qs ih => exact (lasts_serve s q).trans (ih _)

/-- Whether one of the requests of a session takes effect on a document. -/
def touched (s : Store) (uri : String) : List Request → Bool
  | [] => false
  | q :: qs => s.takesEffect uri q || (s.serve q).store.touched uri qs

/-- Until an edit takes effect, an analysis stays in use. -/
theorem current_after {s : Store} {uri : String} {n : Nat} (hn : s.currentAnalysis uri = some n)
    {qs : List Request} (h : s.touched uri qs = false) :
    (s.after qs).currentAnalysis uri = some n := by
  induction qs generalizing s with
  | nil => exact hn
  | cons q qs ih =>
      obtain ⟨hq, hqs⟩ := Bool.or_eq_false_iff.1 h
      exact ih ((spares_serve hq).current n hn) hqs

/-- Once an edit has taken effect, it is out of date for good. -/
theorem outdated_after {s : Store} (hs : s.Sound) {uri : String} {n : Nat}
    (hn : s.currentAnalysis uri = some n) {qs : List Request} (h : s.touched uri qs = true) :
    (s.after qs).Outdated n := by
  induction qs generalizing s with
  | nil => cases h
  | cons q qs ih =>
      cases hq : s.takesEffect uri q with
      | true => exact ((replaces_serve hq).outdated hs hn).of_lasts (lasts_after _ qs)
      | false =>
          rw [touched, hq] at h
          exact ih (sound_serve hs q) ((spares_serve hq).current n hn) h

/-! ### Edits of an open document -/

theorem takesEffect_of_isOpen {s : Store} {uri : String} (hopen : s.isOpen uri = true)
    (q : Request) : s.takesEffect uri q = q.edits uri := by
  cases q with
  | changed u version text | closed u => rw [takesEffect, hopen, Bool.and_true]; rfl
  | _ => rfl

/-- The first edit of an open document takes effect, whichever it is. -/
theorem touched_of_isOpen {s : Store} (hs : s.Sound) {uri : String} (hopen : s.isOpen uri = true)
    (qs : List Request) : s.touched uri qs = qs.any (Request.edits uri) := by
  induction qs generalizing s with
  | nil => rfl
  | cons q qs ih =>
      rw [touched, List.any_cons, takesEffect_of_isOpen hopen]
      cases hq : q.edits uri with
      | true => rfl
      | false =>
          have hstill : (s.serve q).store.isOpen uri = true := by
            rw [isOpen_eq, contents_serve hs hq, ← isOpen_eq]
            exact hopen
          rw [ih (sound_serve hs q) hstill]

end Store

end RexxService
