import RexxService.Proofs.Store.Requests
import RexxService.Proofs.Store.Settings

/-!
# Settings that are not taken over

Settings can fail in two ways.  A value that cannot be read is refused before anything has changed.  A limit
that the pool cannot have is refused only after the configuration has been replaced, so the call fails and the
configuration holds what was asked for all the same (`refused_limit_stays`).

* **`SameSettings`**, **`sameSettings_serve`** — only settings touch the configuration and the pool;
* **`Admitted`**, **`admitted_after`** — a pool that still looks at limits has admitted the present one, in
  every store that can be reached;
* **`applySettings_error_cases`** — the two failures, and what each leaves behind;
* **`failed_reload_keeps_config_iff`** — which failures leave the configuration as it was.
-/

namespace RexxService

open Settings

namespace Store

/-! ### What settings alone can touch -/

/-- Two stores with the same configuration and the same pool. -/
structure SameSettings (s s' : Store) : Prop where
  config : s'.config = s.config
  pool : s'.pool = s.pool

theorem SameSettings.trans {s s' s'' : Store} (h : SameSettings s s') (h' : SameSettings s' s'') :
    SameSettings s s'' :=
  ⟨h'.config.trans h.config, h'.pool.trans h.pool⟩

theorem Works.sameSettings {s s' : Store} (h : Works s s') : SameSettings s s' := by
  obtain ⟨documents, analyses, rfl⟩ := h.frame
  exact ⟨rfl, rfl⟩

theorem sameSettings_settle (s : Store) : SameSettings s s.settle.2 := by
  obtain ⟨documents, analyses, hframe⟩ := settle_frame s
  rw [hframe]
  exact ⟨rfl, rfl⟩

theorem sameSettings_schedule (s : Store) (documents : Table Document) (analyses : Array Analysis)
    (uri : String) (version : Int) (delay : Nat) :
    SameSettings s (schedule { s with documents := documents, analyses := analyses } uri version delay) := by
  obtain ⟨tasks, hframe⟩ := schedule_frame { s with documents := documents, analyses := analyses } uri
    version delay
  rw [hframe]
  exact ⟨rfl, rfl⟩

/-- A request that brings no settings leaves them alone. -/
theorem sameSettings_serve (s : Store) {q : Request} (h : ∀ v, q ≠ .settings v) :
    SameSettings s (s.serve q).store := by
  have hsettled := sameSettings_settle s
  cases q with
  | settings v => exact absurd rfl (h v)
  | opened uri version text =>
      obtain ⟨documents, analyses, hframe⟩ := openDocument_frame s uri version text
      show SameSettings s (s.openDocument uri version text)
      rw [hframe]
      exact sameSettings_schedule s documents analyses uri version _
  | changed uri version text =>
      show SameSettings s (s.changeDocument uri version text)
      cases hopen : s.isOpen uri with
      | false =>
          rw [changeDocument_of_closed hopen]
          exact ⟨rfl, rfl⟩
      | true =>
          obtain ⟨documents, analyses, hframe⟩ := changeDocument_frame hopen version text
          rw [hframe]
          exact sameSettings_schedule s documents analyses uri version _
  | closed uri =>
      obtain ⟨documents, analyses, hframe⟩ := closeDocument_frame s uri
      show SameSettings s (s.closeDocument uri).2
      rw [hframe]
      exact ⟨rfl, rfl⟩
  | begin name uri => exact (works_request s uri).sameSettings.trans ⟨rfl, rfl⟩
  | model uri name =>
      obtain ⟨kept, hframe⟩ := keepOutcome_frame (s.settle.2.awaitModel uri).2 name
        (s.settle.2.awaitModel uri).1
      show SameSettings s ((s.settle.2.awaitModel uri).2.keepOutcome name (s.settle.2.awaitModel uri).1)
      rw [hframe]
      exact (hsettled.trans (works_awaitModel _ uri).sameSettings).trans ⟨rfl, rfl⟩
  | completion uri p => exact hsettled.trans (works_completion _ uri p).sameSettings
  | symbols uri => exact hsettled.trans (works_symbols _ uri).sameSettings
  | diagnostics uri => exact hsettled.trans (works_diagnostics _ uri).sameSettings
  | finish name => exact hsettled
  | advance ms =>
      have hclock : SameSettings s { s.settle.2 with clock := s.settle.2.clock + ms } :=
        hsettled.trans ⟨rfl, rfl⟩
      exact hclock.trans (sameSettings_settle _)
  | _ => exact ⟨rfl, rfl⟩

/-! ### The limit of a pool that serves -/

/-- As long as the pool looks at limits, it has admitted that of the configuration. -/
def Admitted (s : Store) : Prop := s.pool = .serving → Pool.admits s.config = true

theorem admitted_of_create {config : Config} {publishes : Bool} {s : Store}
    (h : create config publishes = .ok s) : s.Admitted := by
  rw [create] at h
  split at h
  · rename_i hadmits
    obtain rfl := Except.ok.inj h
    exact fun _ => hadmits
  · cases h

theorem Admitted.of_same {s s' : Store} (h : s.Admitted) (hsame : SameSettings s s') : s'.Admitted := by
  rw [Admitted, hsame.config, hsame.pool]
  exact h

theorem admitted_applySettings {s : Store} (h : s.Admitted) (v : Json) : (s.applySettings v).2.Admitted := by
  by_cases hv : Readable v
  · obtain ⟨config, hmerge⟩ := Config.merge_of_readable hv s.config
    rw [applySettings_of_merge hmerge]
    rcases reconfigure_cases s config with ⟨-, -, heq⟩ | ⟨hpool, heq⟩
    · rw [heq]
      exact fun hserving => nomatch hserving
    · -- A pool that serves after this has looked at the limit, for a broken one does not recover.
      rw [heq]
      intro hserving
      rcases hpool with hbroken | hadmits
      · cases hbroken.symm.trans hserving
      · exact hadmits
  · rw [applySettings_of_not_readable hv]
    exact h

theorem admitted_serve {s : Store} (h : s.Admitted) (q : Request) : (s.serve q).store.Admitted := by
  by_cases hq : ∀ v, q ≠ .settings v
  · exact h.of_same (sameSettings_serve s hq)
  · obtain ⟨v, rfl⟩ := not_forall_not.1 hq
    exact admitted_applySettings h v

theorem admitted_after {s : Store} (h : s.Admitted) (qs : List Request) : (s.after qs).Admitted := by
  induction qs generalizing s with
  | nil => exact h
  | cons q qs ih => exact ih (admitted_serve h q)

/-! ### Failures -/

theorem lt_of_not_admits {config : Config} (h : Pool.admits config = false) :
    Pool.maxWorkers < config.maxConcurrent := by
  have hover : ¬ max config.maxConcurrent 1 ≤ Pool.maxWorkers := of_decide_eq_false h
  have hone : 1 ≤ Pool.maxWorkers := by decide
  omega

/-- A failure is that of the value, which cannot be read and changes nothing, or that of the pool.  The pool
refuses a limit while it serves, and breaks when the configuration already has that limit. -/
theorem applySettings_error_cases {s : Store} {v : Json} {e : ReloadError}
    (hfail : (s.applySettings v).1 = .error e) :
    e = .settings .malformed ∧ (s.applySettings v).2 = s ∨
      e = .pool .tooManyWorkers ∧ s.pool = .serving ∧ ∃ config, s.config.merge v = .ok config ∧
        (s.applySettings v).2 = { s with config := config, pool := .broken } ∧
        Pool.maxWorkers < config.maxConcurrent := by
  by_cases hv : Readable v
  · obtain ⟨config, hmerge⟩ := Config.merge_of_readable hv s.config
    rw [applySettings_of_merge hmerge] at hfail ⊢
    rcases reconfigure_cases s config with ⟨hserving, hrefused, heq⟩ | ⟨-, heq⟩
    · rw [heq] at hfail ⊢
      exact Or.inr ⟨(Except.error.inj hfail).symm, hserving, config, hmerge, rfl,
        lt_of_not_admits hrefused⟩
    · rw [heq] at hfail
      cases hfail
  · rw [applySettings_of_not_readable hv] at hfail ⊢
    exact Or.inl ⟨(Except.error.inj hfail).symm, rfl⟩

/-- The limit of a pool that serves is one that a pool can have. -/
theorem Admitted.le {s : Store} (h : s.Admitted) (hserving : s.pool = .serving) :
    s.config.maxConcurrent ≤ Pool.maxWorkers :=
  Nat.le_trans (Nat.le_max_left _ _) (of_decide_eq_true (h hserving))

/-- A limit that no pool can have is one that the value asks for: the store did not have it before. -/
theorem asks_of_exceeds {s : Store} (h : s.Admitted) (hserving : s.pool = .serving) {v : Json}
    {config : Config} (hmerge : s.config.merge v = .ok config)
    (hover : Pool.maxWorkers < config.maxConcurrent) : Asks v .maxConcurrent config.maxConcurrent := by
  rcases Config.get_merge hmerge .maxConcurrent with hasks | ⟨-, hsame⟩
  · exact hasks
  · have hlimit : config.maxConcurrent = s.config.maxConcurrent := hsame
    rw [hlimit] at hover
    exact absurd (h.le hserving) (Nat.not_le_of_lt hover)

end Store

open Store in
/-- **Which failures leave the configuration as it was.**  In every store that a session can reach, settings
fail because the value cannot be read or because the pool cannot have the limit that the value asks for.  The
configuration is unchanged exactly in the first case, and then nothing else has changed either.  In the second
case it holds that limit, with all else that the value asks for, and the pool is broken. -/
theorem failed_reload_keeps_config_iff {config : Config} {publishes : Bool} {s : Store}
    (hcreate : create config publishes = .ok s) (qs : List Request) (v : Json) {e : ReloadError}
    (hfail : ((s.after qs).applySettings v).1 = .error e) :
    let before := s.after qs
    let after := (before.applySettings v).2
    (after.config = before.config ↔ e = .settings .malformed) ∧
    (e = .settings .malformed → after = before) ∧
    (e ≠ .settings .malformed → e = .pool .tooManyWorkers ∧
      ∃ config', before.config.merge v = .ok config' ∧
        after = { before with config := config', pool := .broken } ∧
        Asks v .maxConcurrent config'.maxConcurrent ∧ Pool.maxWorkers < config'.maxConcurrent) := by
  intro before after
  have hadmitted : before.Admitted := admitted_after (admitted_of_create hcreate) qs
  rcases applySettings_error_cases hfail with ⟨rfl, hsame⟩ | ⟨rfl, hserving, config', hmerge, hafter, hover⟩
  · exact ⟨⟨fun _ => rfl, fun _ => congrArg Store.config hsame⟩, fun _ => hsame, fun h => absurd rfl h⟩
  · -- The pool has admitted the limit from before, so that is not the one which it refuses now.
    have hchanged : after.config ≠ before.config := by
      intro hsame
      have hconfig : config' = before.config := (congrArg Store.config hafter).symm.trans hsame
      rw [hconfig] at hover
      exact Nat.not_le_of_lt hover (hadmitted.le hserving)
    have hpool : ReloadError.pool .tooManyWorkers ≠ .settings .malformed := fun h => nomatch h
    exact ⟨⟨fun hsame => absurd hsame hchanged, fun h => absurd h hpool⟩, fun h => absurd h hpool,
      fun _ => ⟨rfl, config', hmerge, hafter, asks_of_exceeds hadmitted hserving hmerge hover, hover⟩⟩

open Store in
/-- After a document has been opened, a limit just too large and a number in the place of the sections. -/
theorem failed_reload_keeps_config_one_too_many :
    let s := ofConfig .standard true
    let qs : List Request := [.opened "a" 1 "say", .advance 200]
    let refused : Json := .object [("completion", .object [("matching", .string "caseSensitive")]),
      ("performance", .array [.integer 0x2000000000000000])]
    create .standard true = .ok s ∧
      ((s.after qs).applySettings refused).1 = .error (.pool .tooManyWorkers) ∧
      ((s.after qs).applySettings refused).2.config ≠ (s.after qs).config ∧
      ((s.after qs).applySettings (.integer 1)).1 = .error (.settings .malformed) ∧
      ((s.after qs).applySettings (.integer 1)).2 = s.after qs := by
  intro s qs refused
  have hcreate : create .standard true = .ok s := rfl
  have hrefused : ((s.after qs).applySettings refused).1 = .error (.pool .tooManyWorkers) := rfl
  have hunread : ((s.after qs).applySettings (.integer 1)).1 = .error (.settings .malformed) := rfl
  refine ⟨hcreate, hrefused, fun hsame => ?_, hunread, ?_⟩
  · cases (failed_reload_keeps_config_iff hcreate qs refused hrefused).1.1 hsame
  · exact (failed_reload_keeps_config_iff hcreate qs (.integer 1) hunread).2.1 rfl

open Store in
/-- It is not true that settings which fail leave the configuration as it was. -/
theorem refused_limit_stays :
    ¬ ∀ (config : Config) (publishes : Bool) (s : Store) (qs : List Request) (v : Json) (e : ReloadError),
      create config publishes = .ok s → ((s.after qs).applySettings v).1 = .error e →
        ((s.after qs).applySettings v).2.config = (s.after qs).config := by
  intro h
  let refused : Json := .object [("performance", .object [("maxConcurrent", .integer 0x2000000000000000)])]
  have hkept : ((ofConfig .standard false).applySettings refused).2.config = .standard :=
    h .standard false (ofConfig .standard false) [] refused _ rfl rfl
  exact absurd (congrArg Config.maxConcurrent hkept) (by decide)

end RexxService
