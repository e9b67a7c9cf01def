import Mathlib.Logic.Function.Basic
import RexxService.Store.Documents
import RexxService.Store.Session

/-!
# Consistency of documents and analyses

A store keeps its open documents and the analyses it has started apart, joined only by numbers.
`Consistent` says what holds between the two at rest:

* **`current`** — the analysis that a document points at is of that document's own text and wanted;
* **`wanted`** — an analysis that is wanted is the one that its document points at;
* **`result`** — an analysis that has run holds the model of its text.

The property is stated for a look-up function and an array, so that the edits of a store, which put a
document in the place of another, come down to four facts: analyses may run
(`Consistent.of_run`), a document may be taken away (`Consistent.vacate`), and a document may be put
in a vacant place without an analysis (`Consistent.place`) or with a new one
(`Consistent.placeStarted`).
-/

namespace RexxService

/-- What holds between the open documents and the analyses that have been started. -/
structure Consistent (documents : String → Option Document) (analyses : Array Analysis) : Prop where
  current : ∀ (uri : String) (doc : Document) (n : Nat), documents uri = some doc →
    doc.analysis = some n →
    ∃ a, analyses[n]? = some a ∧ a.uri = uri ∧ a.text = doc.text ∧ a.state = .fresh
  wanted : ∀ (n : Nat) (a : Analysis), analyses[n]? = some a → a.state = .fresh →
    ∃ doc, documents a.uri = some doc ∧ doc.analysis = some n
  result : ∀ (n : Nat) (a : Analysis) (m : Model), analyses[n]? = some a → a.result = some m →
    m = Model.parse a.uri a.text

def analysisAt (documents : String → Option Document) (uri : String) : Option Nat :=
  (documents uri).bind (·.analysis)

theorem analysisAt_eq_some {documents : String → Option Document} {uri : String} {n : Nat} :
    analysisAt documents uri = some n ↔ ∃ doc, documents uri = some doc ∧ doc.analysis = some n :=
  Option.bind_eq_some_iff

namespace Analysis

@[simp] theorem run_uri (a : Analysis) : a.run.uri = a.uri := by
  rw [run]
  split <;> rfl

@[simp] theorem run_text (a : Analysis) : a.run.text = a.text := by
  rw [run]
  split <;> rfl

@[simp] theorem run_state (a : Analysis) : a.run.state = a.state := by
  rw [run]
  split <;> rfl

/-- What an analysis holds after it has run, it held before or is the model of its text. -/
theorem run_result {a : Analysis} {m : Model} (h : a.run.result = some m) :
    a.result = some m ∨ m = Model.parse a.uri a.text := by
  rw [run] at h
  split at h
  · exact Or.inr (Option.some.inj h).symm
  · exact Or.inl h

/-- An analysis that is wanted and holds nothing but the model of its text holds it after it has
run. -/
theorem run_result_of_fresh {a : Analysis} (hfresh : a.state = .fresh)
    (hresult : ∀ m, a.result = some m → m = Model.parse a.uri a.text) :
    a.run.result = some (Model.parse a.uri a.text) := by
  rw [run, hfresh]
  cases hr : a.result with
  | none => rfl
  | some m =>
      show a.result = some (Model.parse a.uri a.text)
      rw [hr, hresult m hr]

/-- Whoever has waited for an analysis that is still wanted gets its model. -/
theorem outcome_of_result {a : Analysis} {m : Model} (hfresh : a.state = .fresh)
    (hresult : a.result = some m) : a.outcome = .ok m := by
  rw [outcome, hfresh, hresult]

theorem outcome_of_stale {a : Analysis} (h : a.state = .stale) : a.outcome = .error .cancelled := by
  rw [outcome, h]
  cases a.result with
  | none => rfl
  | some m => rfl

end Analysis

namespace Consistent

variable {documents : String → Option Document} {analyses : Array Analysis}

/-- Analyses may run, any of them and in any order. -/
theorem of_run (h : Consistent documents analyses) {ran : Array Analysis}
    (hran : ∀ n : Nat, ran[n]? = analyses[n]? ∨ ran[n]? = analyses[n]?.map Analysis.run) :
    Consistent documents ran := by
  -- Every analysis of `ran` comes from the one with the same number, with the same text and state.
  have hback : ∀ (n : Nat) (b : Analysis), ran[n]? = some b → ∃ a, analyses[n]? = some a ∧ b.uri = a.uri ∧
      b.text = a.text ∧ b.state = a.state ∧
      ∀ m, b.result = some m → a.result = some m ∨ m = Model.parse a.uri a.text := by
    intro n b hb
    rcases hran n with heq | heq
    · exact ⟨b, heq ▸ hb, rfl, rfl, rfl, fun m hm => Or.inl hm⟩
    · rw [heq] at hb
      obtain ⟨a, ha, rfl⟩ := Option.map_eq_some_iff.1 hb
      exact ⟨a, ha, a.run_uri, a.run_text, a.run_state, fun m hm => Analysis.run_result hm⟩
  refine ⟨?_, ?_, ?_⟩
  · intro uri doc n hdoc hn
    obtain ⟨a, ha, huri, htext, hstate⟩ := h.current uri doc n hdoc hn
    rcases hran n with heq | heq
    · exact ⟨a, heq.trans ha, huri, htext, hstate⟩
    · refine ⟨a.run, ?_, ?_, ?_, ?_⟩
      · rw [heq, ha]
        rfl
      · rw [a.run_uri, huri]
      · rw [a.run_text, htext]
      · rw [a.run_state, hstate]
  · intro n b hb hfresh
    obtain ⟨a, ha, huri, -, hstate, -⟩ := hback n b hb
    rw [huri]
    exact h.wanted n a ha (hstate ▸ hfresh)
  · intro n b m hb hm
    obtain ⟨a, ha, huri, htext, -, hres⟩ := hback n b hb
    rw [huri, htext]
    rcases hres m hm with hm | hm
    · exact h.result n a m ha hm
    · exact hm

/-- The analyses of two documents have different numbers. -/
theorem number_ne (h : Consistent documents analyses) {uri other : String} {m n : Nat}
    (hm : analysisAt documents uri = some m) (hn : analysisAt documents other = some n)
    (hne : other ≠ uri) : m ≠ n := by
  obtain ⟨doc, hdoc, hdm⟩ := analysisAt_eq_some.1 hm
  obtain ⟨doc', hdoc', hdn⟩ := analysisAt_eq_some.1 hn
  obtain ⟨a, ha, huri, -⟩ := h.current uri doc m hdoc hdm
  obtain ⟨b, hb, huri', -⟩ := h.current other doc' n hdoc' hdn
  rintro rfl
  rw [ha] at hb
  obtain rfl := Option.some.inj hb
  exact hne (huri'.symm.trans huri)

/-- What is put at an address does not matter to a wanted analysis that is not the one of the document
there. -/
theorem wanted_elsewhere (h : Consistent documents analyses) {uri : String} {n : Nat}
    (hnot : analysisAt documents uri ≠ some n) (there : Option Document) {a : Analysis}
    (ha : analyses[n]? = some a) (hfresh : a.state = .fresh) :
    ∃ doc, Function.update documents uri there a.uri = some doc ∧ doc.analysis = some n := by
  obtain ⟨doc, hdoc, hn⟩ := h.wanted n a ha hfresh
  have hne : a.uri ≠ uri := by
    rintro rfl
    exact hnot (analysisAt_eq_some.2 ⟨doc, hdoc, hn⟩)
  exact ⟨doc, by rw [Function.update_of_ne hne, hdoc], hn⟩

/-- A document may be taken away, once its analysis is no longer wanted. -/
theorem vacate (h : Consistent documents analyses) {uri : String} {after : Array Analysis}
    (hafter : ∀ n : Nat, after[n]? = if analysisAt documents uri = some n then
      analyses[n]?.map Analysis.cancel else analyses[n]?) :
    Consistent (Function.update documents uri none) after := by
  refine ⟨?_, ?_, ?_⟩
  · intro other doc n hdoc hn
    have hne : other ≠ uri := by
      rintro rfl
      rw [Function.update_self] at hdoc
      cases hdoc
    rw [Function.update_of_ne hne] at hdoc
    have hother := analysisAt_eq_some.2 ⟨doc, hdoc, hn⟩
    rw [hafter, if_neg fun hm => h.number_ne hm hother hne rfl]
    exact h.current other doc n hdoc hn
  · intro n a ha hfresh
    rw [hafter] at ha
    split at ha
    · obtain ⟨b, -, rfl⟩ := Option.map_eq_some_iff.1 ha
      cases hfresh
    · rename_i hnot
      exact h.wanted_elsewhere hnot _ ha hfresh
  · intro n a m ha hm
    rw [hafter] at ha
    split at ha
    · obtain ⟨b, hb, rfl⟩ := Option.map_eq_some_iff.1 ha
      exact h.result n b m hb hm
    · exact h.result n a m ha hm

/-- A document may be put in a place where no analysis is under way. -/
theorem place (h : Consistent documents analyses) {uri : String}
    (hidle : analysisAt documents uri = none) (version : Int) (text : String) :
    Consistent (Function.update documents uri (some ⟨version, text, none⟩)) analyses := by
  refine ⟨?_, ?_, h.result⟩
  · intro other doc n hdoc hn
    by_cases hother : other = uri
    · subst hother
      rw [Function.update_self] at hdoc
      obtain rfl := Option.some.inj hdoc
      cases hn
    · rw [Function.update_of_ne hother] at hdoc
      exact h.current other doc n hdoc hn
  · intro n a ha hfresh
    exact h.wanted_elsewhere (by rw [hidle]; simp) _ ha hfresh

/-- A document may be put, together with a new analysis of its text, in a place where no analysis is
under way. -/
theorem placeStarted (h : Consistent documents analyses) {uri : String}
    (hidle : analysisAt documents uri = none) (version : Int) (text : String) :
    Consistent (Function.update documents uri (some ⟨version, text, some analyses.size⟩))
      (analyses.push ⟨uri, text, .fresh, none⟩) := by
  have hpush : ∀ n : Nat, n ≠ analyses.size →
      (analyses.push ⟨uri, text, .fresh, none⟩)[n]? = analyses[n]? := by
    intro n hn
    rw [Array.getElem?_push, if_neg hn]
  have hlast : (analyses.push ⟨uri, text, .fresh, none⟩)[analyses.size]?
      = some ⟨uri, text, .fresh, none⟩ := by
    rw [Array.getElem?_push, if_pos rfl]
  refine ⟨?_, ?_, ?_⟩
  · intro other doc n hdoc hn
    by_cases hother : other = uri
    · subst hother
      rw [Function.update_self] at hdoc
      obtain rfl := Option.some.inj hdoc
      obtain rfl := Option.some.inj hn
      exact ⟨_, hlast, rfl, rfl, rfl⟩
    · rw [Function.update_of_ne hother] at hdoc
      obtain ⟨a, ha, hrest⟩ := h.current other doc n hdoc hn
      have hlt : n < analyses.size := (Array.getElem?_eq_some_iff.1 ha).1
      exact ⟨a, (hpush n (by omega)).trans ha, hrest⟩
  · intro n a ha hfresh
    by_cases hsize : n = analyses.size
    · subst hsize
      rw [hlast] at ha
      obtain rfl := Option.some.inj ha
      exact ⟨_, Function.update_self .., rfl⟩
    · rw [hpush n hsize] at ha
      exact h.wanted_elsewhere (by rw [hidle]; simp) _ ha hfresh
  · intro n a m ha hm
    by_cases hsize : n = analyses.size
    · subst hsize
      rw [hlast] at ha
      obtain rfl := Option.some.inj ha
      cases hm
    · rw [hpush n hsize] at ha
      exact h.result n a m ha hm

end Consistent

end RexxService
