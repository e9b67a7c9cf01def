import RexxService.Proofs.Config.Records
import RexxService.Proofs.Store.Edits

/-!
# The last writer of a setting wins

Settings arrive one value after the other, and each value speaks about some of the settings.  A value that
cannot be read changes nothing, not even where it could be read.  So after any number of values each setting
is what the last readable value asked for that asked for anything, and what it was at first if none did.

* **`Config.get`**, **`Config.eq_of_get`** — a configuration, setting by setting;
* **`get_merge`** — what one value does to a setting of a configuration;
* **`applySettings_of_not_readable`**, **`applySettings_of_merge`**, **`reconfigure_cases`** — what it does to
  a store;
* **`LastWins`**, **`lastWins_applyAll`** — what a run of values does to a setting;
* **`last_settings_win`** — this, and what follows from it.
-/

namespace RexxService

open Settings

/-! ### One value and a configuration -/

namespace Config

def get (config : Config) : (k : Setting) → k.Value
  | .matching => config.matching
  | .maxConcurrent => config.maxConcurrent
  | .openDelay => config.openDelay
  | .changeDelay => config.changeDelay

theorem eq_of_get {config config' : Config} (h : ∀ k, config.get k = config'.get k) : config = config' := by
  obtain ⟨matching, maxConcurrent, openDelay, changeDelay⟩ := config
  have hmatching : matching = config'.matching := h .matching
  have hlimit : maxConcurrent = config'.maxConcurrent := h .maxConcurrent
  have hopen : openDelay = config'.openDelay := h .openDelay
  have hchange : changeDelay = config'.changeDelay := h .changeDelay
  rw [hmatching, hlimit, hopen, hchange]

/-- Adjustments show in each setting that they speak about. -/
theorem get_adjust (config : Config) (s : Settings) (k : Setting) :
    (config.adjust s).get k = ((s.get? k).filter k.counts).getD (config.get k) := by
  have hfilter {α : Type} (o : Option α) : o.filter (fun _ => true) = o := by
    cases o <;> rfl
  cases k with
  | maxConcurrent => rfl
  | matching => exact congrArg (Option.getD · config.matching) (hfilter s.matching).symm
  | openDelay => exact congrArg (Option.getD · config.openDelay) (hfilter s.openDelay).symm
  | changeDelay => exact congrArg (Option.getD · config.changeDelay) (hfilter s.changeDelay).symm

variable {config config' : Config} {v w : Json}

theorem merge_of_ne_null (hv : v ≠ .null) (config : Config) :
    config.merge v = decode v >>= fun s => .ok (config.adjust s) := by
  cases v with
  | null => exact absurd rfl hv
  | _ => rfl

theorem merge_of_readable (h : Readable v) (config : Config) : ∃ config', config.merge v = .ok config' := by
  by_cases hv : v = .null
  · exact ⟨config, by rw [hv]; rfl⟩
  · obtain ⟨s, hs⟩ := (readable_iff hv).1 h
    exact ⟨config.adjust s, by rw [merge_of_ne_null hv, hs]; rfl⟩

theorem merge_of_not_readable (h : ¬ Readable v) (config : Config) : config.merge v = .error .malformed := by
  have hv : v ≠ .null := fun hnull => h (Or.inl hnull)
  rw [merge_of_ne_null hv]
  cases hdecode : decode v with
  | ok s => exact absurd ((readable_iff hv).2 ⟨s, hdecode⟩) h
  | error e => rfl

/-- Values that are decoded alike are applied alike. -/
theorem merge_of_spellsOut (h : SpellsOut v w) (config : Config) : config.merge v = config.merge w := by
  have hv : v ≠ .null := by
    cases h <;> exact fun h => nomatch h
  have hw : w ≠ .null := by
    cases h <;> exact fun h => nomatch h
  rw [merge_of_ne_null hv, merge_of_ne_null hw, decode_of_spellsOut h]

/-- A setting becomes what a value asks for, and stays as it is if the value asks for nothing. -/
theorem get_merge (h : config.merge v = .ok config') (k : Setting) :
    Asks v k (config'.get k) ∨ (∀ x, ¬ Asks v k x) ∧ config'.get k = config.get k := by
  by_cases hv : v = .null
  · subst hv
    obtain rfl := Except.ok.inj h
    exact Or.inr ⟨not_asks_null k, rfl⟩
  · rw [merge_of_ne_null hv] at h
    obtain ⟨s, hs, h⟩ := bind_eq_ok_iff.1 h
    obtain rfl := Except.ok.inj h
    rw [get_adjust]
    cases hfound : (s.get? k).filter k.counts with
    | some x => exact Or.inl ((asks_iff hv hs).2 hfound)
    | none =>
        refine Or.inr ⟨fun x hx => ?_, rfl⟩
        rw [asks_iff hv hs, hfound] at hx
        cases hx

/-- A value that has been applied changes nothing any more. -/
theorem merge_merge (h : config.merge v = .ok config') : config'.merge v = .ok config' := by
  have hreadable : Readable v := by
    by_contra hnot
    cases (merge_of_not_readable hnot config).symm.trans h
  obtain ⟨config'', hagain⟩ := merge_of_readable hreadable config'
  rw [hagain]
  refine congrArg Except.ok (eq_of_get fun k => ?_)
  rcases get_merge hagain k with hasks' | ⟨-, hsame⟩
  · rcases get_merge h k with hasks | ⟨hnone, -⟩
    · exact eq_of_asks hasks' hasks
    · exact absurd hasks' (hnone _)
  · exact hsame

end Config

/-! ### One value and a store -/

namespace Store

variable {s : Store} {v w : Json}

theorem applySettings_of_not_readable (h : ¬ Readable v) (s : Store) :
    s.applySettings v = (.error (.settings .malformed), s) := by
  rw [applySettings, Config.merge_of_not_readable h]

theorem applySettings_of_merge {config : Config} (h : s.config.merge v = .ok config) :
    s.applySettings v = s.reconfigure config := by
  rw [applySettings, h]

/-- A configuration is taken over, unless the pool looks at its limit and refuses it.  Then it is taken over
as well, but not reported so, and the pool does not look at a limit again. -/
theorem reconfigure_cases (s : Store) (config : Config) :
    (s.pool = .serving ∧ Pool.admits config = false ∧ s.reconfigure config
        = (.error (.pool .tooManyWorkers), { s with config := config, pool := .broken })) ∨
      (s.pool = .broken ∨ Pool.admits config = true) ∧
        s.reconfigure config = (.ok (), { s with config := config }) := by
  rw [reconfigure]
  dsimp only
  cases hpool : s.pool with
  | broken => exact Or.inr ⟨Or.inl rfl, rfl⟩
  | serving =>
      cases hadmits : Pool.admits config with
      | true => exact Or.inr ⟨Or.inr rfl, rfl⟩
      | false => exact Or.inl ⟨rfl, rfl, rfl⟩

theorem reconfigure_ne_settings (s : Store) (config : Config) (e : SettingsError) :
    (s.reconfigure config).1 ≠ .error (.settings e) := by
  rcases reconfigure_cases s config with ⟨-, -, heq⟩ | ⟨-, heq⟩
  · rw [heq]
    exact fun h => nomatch h
  · rw [heq]
    exact fun h => nomatch h

/-- A value is reported as unreadable exactly if it is. -/
theorem applySettings_eq_malformed_iff (s : Store) (v : Json) :
    (s.applySettings v).1 = .error (.settings .malformed) ↔ ¬ Readable v := by
  constructor
  · intro h hreadable
    obtain ⟨config, hmerge⟩ := Config.merge_of_readable hreadable s.config
    rw [applySettings_of_merge hmerge] at h
    exact reconfigure_ne_settings s config _ h
  · intro h
    rw [applySettings_of_not_readable h]

theorem config_of_merge {config : Config} (h : s.config.merge v = .ok config) :
    (s.applySettings v).2.config = config := by
  obtain ⟨pool, hpool⟩ := reconfigure_eq s config
  rw [applySettings_of_merge h, hpool]

/-- A value does to a setting of a store what it does to that of a configuration. -/
theorem get_applySettings (s : Store) (v : Json) (k : Setting) :
    Asks v k ((s.applySettings v).2.config.get k) ∨
      (∀ x, ¬ Asks v k x) ∧ (s.applySettings v).2.config.get k = s.config.get k := by
  by_cases h : Readable v
  · obtain ⟨config, hmerge⟩ := Config.merge_of_readable h s.config
    rw [config_of_merge hmerge]
    exact Config.get_merge hmerge k
  · rw [applySettings_of_not_readable h]
    exact Or.inr ⟨fun x hx => h hx.1, rfl⟩

theorem reconfigure_reconfigure (s : Store) (config : Config) :
    ((s.reconfigure config).2.reconfigure config).2 = (s.reconfigure config).2 := by
  rcases reconfigure_cases s config with ⟨-, -, heq⟩ | ⟨hpool, heq⟩
  · rw [heq]
    rfl
  · rw [heq]
    rcases reconfigure_cases { s with config := config } config with ⟨hserving, hrefused, -⟩ | ⟨-, heq'⟩
    · rcases hpool with hbroken | hadmits
      · cases hbroken.symm.trans hserving
      · cases hadmits.symm.trans hrefused
    · rw [heq']

/-- A value that is applied once more changes nothing. -/
theorem applySettings_applySettings (s : Store) (v : Json) :
    ((s.applySettings v).2.applySettings v).2 = (s.applySettings v).2 := by
  by_cases h : Readable v
  · obtain ⟨config, hmerge⟩ := Config.merge_of_readable h s.config
    have hagain : (s.applySettings v).2.config.merge v = .ok config := by
      rw [config_of_merge hmerge]
      exact Config.merge_merge hmerge
    rw [applySettings_of_merge hagain, applySettings_of_merge hmerge]
    exact reconfigure_reconfigure s config
  · rw [applySettings_of_not_readable h, applySettings_of_not_readable h]

/-! ### A run of values -/

def applyAll (s : Store) (values : List Json) : Store := values.foldl (fun s v => (s.applySettings v).2) s

/-- A setting is what the last of some values asks for that asks for anything, and what it was before if none
of them does. -/
def LastWins (values : List Json) (k : Setting) (initial final : k.Value) : Prop :=
  (∃ before v after, values = before ++ v :: after ∧ Asks v k final ∧ ∀ w ∈ after, ∀ x, ¬ Asks w k x) ∨
    (∀ w ∈ values, ∀ x, ¬ Asks w k x) ∧ final = initial

/-- A run of values, setting by setting. -/
theorem lastWins_applyAll (s : Store) (values : List Json) (k : Setting) :
    LastWins values k (s.config.get k) ((s.applyAll values).config.get k) := by
  induction values generalizing s with
  | nil => exact Or.inr ⟨fun w hw => (List.not_mem_nil hw).elim, rfl⟩
  | cons v values ih =>
      rcases ih (s.applySettings v).2 with ⟨before, u, after, rfl, hasks, hafter⟩ | ⟨hnone, hsame⟩
      · exact Or.inl ⟨v :: before, u, after, rfl, hasks, hafter⟩
      · -- No later value speaks about the setting, so it is as the first value has left it.
        show LastWins (v :: values) k (s.config.get k) (((s.applySettings v).2.applyAll values).config.get k)
        rw [hsame]
        rcases get_applySettings s v k with hasks | ⟨hv, hkept⟩
        · exact Or.inl ⟨[], v, values, rfl, hasks, hnone⟩
        · exact Or.inr ⟨List.forall_mem_cons.2 ⟨hv, hnone⟩, hkept⟩

/-- A limit that allows an analysis still does after any settings. -/
theorem maxConcurrent_applyAll (h : 0 < s.config.maxConcurrent) (values : List Json) :
    0 < (s.applyAll values).config.maxConcurrent := by
  rcases lastWins_applyAll s values .maxConcurrent with ⟨before, v, after, -, hasks, -⟩ | ⟨-, hsame⟩
  · exact of_decide_eq_true hasks.2.2
  · have hlimit : (s.applyAll values).config.maxConcurrent = s.config.maxConcurrent := hsame
    rw [hlimit]
    exact h

end Store

open Store in
/-- **The last writer of a setting wins.**  Whatever the store and its configuration, a value is reported as
malformed exactly if it cannot be read, and then it changes nothing.  After any sequence of values each setting
is what the last value asks for that can be read and asks for anything, and what it was before if there is
none.  So a value may be applied twice, a positive limit stays positive, and the configuration of a value by
itself is the standard one with that value applied.  An array in the place of a record, with its fields in
order, is applied like the object with these fields. -/
theorem last_settings_win (s : Store) :
    (∀ v, (s.applySettings v).1 = .error (.settings .malformed) ↔ ¬ Readable v) ∧
    (∀ v, ¬ Readable v → (s.applySettings v).2 = s) ∧
    (∀ (values : List Json) (k : Setting),
      LastWins values k (s.config.get k) ((s.applyAll values).config.get k)) ∧
    (∀ v, ((s.applySettings v).2.applySettings v).2 = (s.applySettings v).2) ∧
    (0 < s.config.maxConcurrent → ∀ values, 0 < (s.applyAll values).config.maxConcurrent) ∧
    (∀ v, (Readable v → Config.ofSettings v
        = .ok ({ s with config := .standard }.applySettings v).2.config) ∧
      (¬ Readable v → Config.ofSettings v = .error .malformed)) ∧
    ∀ v w, SpellsOut v w → s.applySettings v = s.applySettings w := by
  refine ⟨applySettings_eq_malformed_iff s, fun v h => ?_, lastWins_applyAll s, applySettings_applySettings s,
    maxConcurrent_applyAll, fun v => ⟨fun h => ?_, fun h => ?_⟩, fun v w h => ?_⟩
  · rw [applySettings_of_not_readable h]
  · obtain ⟨config, hmerge⟩ := Config.merge_of_readable h .standard
    rw [config_of_merge hmerge]
    exact hmerge
  · exact Config.merge_of_not_readable h .standard
  · rw [applySettings, applySettings, Config.merge_of_spellsOut h]

open Store in
/-- Between two values of which each speaks about some settings, a value with one bad section is left out,
its good section included; a limit of zero in the last value does not overrule the first. -/
theorem last_settings_win_bad_section :
    let s := ofConfig .standard false
    let first : Json := .object [("completion", .array [.string "caseSensitive"]),
      ("performance", .object [("maxConcurrent", .integer 4), ("other", .bool true)])]
    let bad : Json := .object [("performance", .object [("maxConcurrent", .integer 8)]), ("diagnostics", .null)]
    let last : Json := .array [.object [], .array [.integer 0], .array [.null, .integer 7]]
    let spelled : Json := .array [.object [], .array [.integer 0],
      .object [("openDelayMs", .null), ("changeDelayMs", .integer 7)]]
    ¬ Readable bad ∧ (s.applySettings bad).2 = s ∧
      (s.applyAll [first, bad, last]).config = ⟨.caseSensitive, 4, 150, 7⟩ ∧
      LastWins [first, bad, last] .maxConcurrent 2 (4 : Nat) ∧
      0 < s.config.maxConcurrent ∧ 0 < (s.applyAll [first, bad, last]).config.maxConcurrent ∧
      Config.ofSettings bad = .error .malformed ∧
      SpellsOut last spelled ∧ s.applySettings last = s.applySettings spelled := by
  intro s first bad last spelled
  obtain ⟨hreported, hunread, hlast, -, hpositive, hsettings, hspelled⟩ := last_settings_win s
  have hbad : ¬ Readable bad := (hreported bad).1 rfl
  have hspells : SpellsOut last spelled :=
    .inArray .diagnostics (by decide) [.object [], .array [.integer 0]] [] rfl
  exact ⟨hbad, hunread bad hbad, rfl, hlast _ .maxConcurrent, by decide, hpositive (by decide) _,
    (hsettings bad).2 hbad, hspells, hspelled last spelled hspells⟩

end RexxService
