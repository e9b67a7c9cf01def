import RexxService.Proofs.Store.Background
import RexxService.Store.Session

/-!
# What edits do to a store

Opening, changing and closing a document change the contents at one address, keep the configuration,
and leave a sound store sound.  Each edit is taken apart in the same way: the document's analysis is
put out of date and the place becomes vacant, and then the new document, if there is one, is put
there.  Settings change the configuration and no document.  The `_frame` lemmas say which parts of a
store an operation can touch at all.
-/

namespace RexxService

namespace Store

/-! ### Putting an analysis out of date -/

@[simp] theorem invalidate_documents (s : Store) (uri : String) :
    (s.invalidate uri).documents = s.documents := by
  rw [invalidate]
  split <;> rfl

@[simp] theorem invalidate_config (s : Store) (uri : String) :
    (s.invalidate uri).config = s.config := by
  rw [invalidate]
  split <;> rfl

theorem invalidate_contents (s : Store) (uri : String) :
    (s.invalidate uri).contents = s.contents := by
  funext other
  show ((s.invalidate uri).documents.get? other).map _ = _
  rw [invalidate_documents]
  rfl

/-- Only the analysis of the document is touched. -/
theorem invalidate_analyses (s : Store) (uri : String) (n : Nat) :
    (s.invalidate uri).analyses[n]? = if analysisAt s.documents.get? uri = some n then
      s.analyses[n]?.map Analysis.cancel else s.analyses[n]? := by
  rw [invalidate]
  cases h : (s.documents.get? uri).bind (·.analysis) with
  | none =>
      have hnot : analysisAt s.documents.get? uri ≠ some n := by
        rw [analysisAt, h]
        simp
      rw [if_neg hnot]
  | some m =>
      have hat : analysisAt s.documents.get? uri = some m := h
      show (s.analyses.modify m Analysis.cancel)[n]? = _
      rw [Array.getElem?_modify, hat]
      by_cases hmn : m = n
      · rw [if_pos hmn, if_pos (by rw [hmn])]
      · rw [if_neg hmn, if_neg fun heq => hmn (Option.some.inj heq)]

theorem invalidate_frame (s : Store) (uri : String) :
    ∃ analyses, s.invalidate uri = { s with analyses := analyses } := by
  rw [invalidate]
  split
  · exact ⟨s.analyses, rfl⟩
  · exact ⟨_, rfl⟩

/-- With its analysis out of date, a document can be taken away. -/
theorem consistent_invalidate {s : Store} (hs : s.Sound) (uri : String) :
    Consistent (Function.update s.documents.get? uri none) (s.invalidate uri).analyses :=
  Consistent.vacate hs (invalidate_analyses s uri)

/-- A place that has been vacated has no analysis. -/
theorem analysisAt_vacated (documents : String → Option Document) (uri : String) :
    analysisAt (Function.update documents uri none) uri = none := by
  rw [analysisAt, Function.update_self]
  rfl

theorem schedule_frame (s : Store) (uri : String) (version : Int) (delay : Nat) :
    ∃ tasks, s.schedule uri version delay = { s with tasks := tasks } := by
  rw [schedule]
  split
  · exact ⟨_, rfl⟩
  · exact ⟨s.tasks, rfl⟩

theorem steady_schedule (s : Store) (uri : String) (version : Int) (delay : Nat) :
    Steady s (s.schedule uri version delay) := by
  obtain ⟨tasks, hframe⟩ := schedule_frame s uri version delay
  rw [hframe]
  exact ⟨rfl, rfl, id⟩

/-! ### Opening a document -/

/-- The store in which a document has been opened, before its diagnostics are scheduled. -/
def opened (s : Store) (uri : String) (version : Int) (text : String) : Store :=
  let started := ((s.invalidate uri).start uri text).2
  let n := (s.invalidate uri).analyses.size
  { started with documents := started.documents.put uri ⟨version, text, some n⟩ }

theorem openDocument_eq (s : Store) (uri : String) (version : Int) (text : String) :
    s.openDocument uri version text
      = (s.opened uri version text).schedule uri version (s.opened uri version text).config.openDelay :=
  rfl

theorem opened_sound {s : Store} (hs : s.Sound) (uri : String) (version : Int) (text : String) :
    (s.opened uri version text).Sound := by
  have h := (consistent_invalidate hs uri).placeStarted (analysisAt_vacated _ uri) version text
  rw [Function.update_idem] at h
  show Consistent ((s.invalidate uri).documents.put uri _).get? _
  rw [Table.get?_put_eq, invalidate_documents]
  exact h

theorem opened_contents (s : Store) (uri : String) (version : Int) (text : String) :
    (s.opened uri version text).contents = Function.update s.contents uri (some ⟨version, text⟩) := by
  have hstart : ((s.invalidate uri).start uri text).2.contents = s.contents :=
    invalidate_contents s uri
  rw [opened, contents_put, hstart]
  rfl

theorem openDocument_sound {s : Store} (hs : s.Sound) (uri : String) (version : Int)
    (text : String) : (s.openDocument uri version text).Sound := by
  rw [openDocument_eq]
  exact (steady_schedule _ _ _ _).sound (opened_sound hs uri version text)

theorem openDocument_contents (s : Store) (uri : String) (version : Int) (text : String) :
    (s.openDocument uri version text).contents
      = Function.update s.contents uri (some ⟨version, text⟩) := by
  rw [openDocument_eq, (steady_schedule _ _ _ _).contents, opened_contents]

theorem openDocument_config (s : Store) (uri : String) (version : Int) (text : String) :
    (s.openDocument uri version text).config = s.config := by
  rw [openDocument_eq, (steady_schedule _ _ _ _).config]
  exact invalidate_config s uri

theorem openDocument_frame (s : Store) (uri : String) (version : Int) (text : String) :
    ∃ documents analyses, s.openDocument uri version text
      = schedule { s with documents := documents, analyses := analyses } uri version
          s.config.openDelay := by
  obtain ⟨analyses, hframe⟩ := invalidate_frame s uri
  rw [openDocument_eq, opened, hframe]
  exact ⟨_, _, rfl⟩

/-! ### Changing a document -/

/-- The store in which the text of a document has been replaced, before its diagnostics are
scheduled. -/
def changed (s : Store) (uri : String) (version : Int) (text : String) : Store :=
  { s.invalidate uri with documents := (s.invalidate uri).documents.put uri ⟨version, text, none⟩ }

theorem changeDocument_eq (s : Store) (uri : String) (version : Int) (text : String) :
    s.changeDocument uri version text = if s.isOpen uri then
      (s.changed uri version text).schedule uri version (s.changed uri version text).config.changeDelay
    else s := rfl

theorem changed_sound {s : Store} (hs : s.Sound) (uri : String) (version : Int) (text : String) :
    (s.changed uri version text).Sound := by
  have h := (consistent_invalidate hs uri).place (analysisAt_vacated _ uri) version text
  rw [Function.update_idem] at h
  show Consistent ((s.invalidate uri).documents.put uri _).get? _
  rw [Table.get?_put_eq, invalidate_documents]
  exact h

theorem changed_contents (s : Store) (uri : String) (version : Int) (text : String) :
    (s.changed uri version text).contents
      = Function.update s.contents uri (some ⟨version, text⟩) := by
  rw [changed, contents_put, invalidate_contents]
  rfl

theorem isOpen_eq (s : Store) (uri : String) : s.isOpen uri = (s.contents uri).isSome :=
  Option.isSome_map.symm

theorem changeDocument_sound {s : Store} (hs : s.Sound) (uri : String) (version : Int)
    (text : String) : (s.changeDocument uri version text).Sound := by
  rw [changeDocument_eq]
  split
  · exact (steady_schedule _ _ _ _).sound (changed_sound hs uri version text)
  · exact hs

/-- A change of a document that is not open changes nothing. -/
theorem changeDocument_contents (s : Store) (uri : String) (version : Int) (text : String) :
    (s.changeDocument uri version text).contents = if (s.contents uri).isSome then
      Function.update s.contents uri (some ⟨version, text⟩) else s.contents := by
  rw [changeDocument_eq, isOpen_eq]
  split
  · rw [(steady_schedule _ _ _ _).contents, changed_contents]
  · rfl

theorem changeDocument_config (s : Store) (uri : String) (version : Int) (text : String) :
    (s.changeDocument uri version text).config = s.config := by
  rw [changeDocument_eq]
  split
  · rw [(steady_schedule _ _ _ _).config]
    exact invalidate_config s uri
  · rfl

theorem changeDocument_frame {s : Store} {uri : String} (hopen : s.isOpen uri = true)
    (version : Int) (text : String) :
    ∃ documents analyses, s.changeDocument uri version text
      = schedule { s with documents := documents, analyses := analyses } uri version
          s.config.changeDelay := by
  obtain ⟨analyses, hframe⟩ := invalidate_frame s uri
  rw [changeDocument_eq, if_pos hopen, changed, hframe]
  exact ⟨_, _, rfl⟩

/-- A document that is not open cannot be changed. -/
theorem changeDocument_of_closed {s : Store} {uri : String} (hopen : s.isOpen uri = false)
    (version : Int) (text : String) : s.changeDocument uri version text = s := by
  rw [changeDocument_eq, hopen]
  rfl

/-! ### Closing a document -/

theorem closeDocument_sound {s : Store} (hs : s.Sound) (uri : String) :
    (s.closeDocument uri).2.Sound := by
  show Consistent ((s.invalidate uri).documents.erase uri).get? _
  rw [Table.get?_erase_eq, invalidate_documents]
  exact consistent_invalidate hs uri

theorem closeDocument_contents (s : Store) (uri : String) :
    (s.closeDocument uri).2.contents = Function.update s.contents uri none := by
  funext other
  show (((s.invalidate uri).documents.erase uri).get? other).map _ = _
  rw [Table.get?_erase, invalidate_documents, Function.update_apply]
  split <;> rfl

theorem closeDocument_config (s : Store) (uri : String) :
    (s.closeDocument uri).2.config = s.config := invalidate_config s uri

theorem closeDocument_frame (s : Store) (uri : String) :
    ∃ documents analyses, s.closeDocument uri
      = (if s.publishes then [⟨uri, none, []⟩] else [],
          { s with documents := documents, analyses := analyses }) := by
  obtain ⟨analyses, hframe⟩ := invalidate_frame s uri
  rw [closeDocument, hframe]
  exact ⟨_, _, rfl⟩

/-! ### Taking over settings -/

/-- A configuration is taken over even when the pool refuses its limit. -/
theorem reconfigure_eq (s : Store) (config : Config) :
    ∃ pool, (s.reconfigure config).2 = { s with config := config, pool := pool } := by
  rw [reconfigure]
  dsimp only
  split
  · exact ⟨s.pool, rfl⟩
  · split
    · exact ⟨s.pool, rfl⟩
    · exact ⟨.broken, rfl⟩

theorem applySettings_frame (s : Store) (value : Json) :
    ∃ config pool, (s.applySettings value).2 = { s with config := config, pool := pool } := by
  rw [applySettings]
  cases s.config.merge value with
  | error e => exact ⟨s.config, s.pool, rfl⟩
  | ok config =>
      obtain ⟨pool, hpool⟩ := reconfigure_eq s config
      exact ⟨config, pool, hpool⟩

end Store

end RexxService
