import Mathlib.Data.List.Nodup
import RexxService.Config

/-!
# Settings as records

A settings value is a record of records.  This module says which values can be read and what they ask for,
by a description that does not decode anything:

* **`Json.IsRecord`**, **`Json.field?`** — a value is a record with given field names, and what stands in a
  field, in either of the two ways to write a record;
* **`Setting`**, **`Setting.Reads`** — the four things that can be adjusted, and how their values are written;
* **`Setting.leaf?`** — what a settings value says about a setting;
* **`Readable`** — every record is one, and every leaf can be read;
* **`decode_eq_ok_iff`** — decoding succeeds for just these values, and takes over just these leaves;
* **`SpellsOut`**, **`decode_of_spellsOut`** — a record in the place of an array of its fields is read alike.
-/

namespace RexxService

theorem bind_eq_ok_iff {ε α β : Type} {x : Except ε α} {f : α → Except ε β} {b : β} :
    x >>= f = .ok b ↔ ∃ a, x = .ok a ∧ f a = .ok b := by
  cases x with
  | error e => simp [bind, Except.bind]
  | ok a => simp [bind, Except.bind]

/-! ### Records -/

namespace Json

/-- A record with the given field names: any object, or an array of at most as many elements. -/
inductive IsRecord (names : List String) : Json → Prop where
  | object (members : List (String × Json)) : IsRecord names (.object members)
  | array {elements : List Json} (h : elements.length ≤ names.length) : IsRecord names (.array elements)

theorem isRecord_array_iff {names : List String} {elements : List Json} :
    IsRecord names (.array elements) ↔ elements.length ≤ names.length := by
  constructor
  · intro h
    cases h with
    | array h => exact h
  · exact .array

/-- What stands in a field of a record: the member of that name, or the element in that place. -/
def field? (names : List String) (name : String) : Json → Option Json
  | .object members => member? name members
  | .array elements => elements[names.idxOf name]?
  | _ => none

/-- An array of values is read as the object in which each value stands under the name of its field. -/
theorem lookup_zip (name : String) (names : List String) (elements : List Json)
    (h : elements.length ≤ names.length) :
    (names.zip elements).lookup name = elements[names.idxOf name]? := by
  induction names generalizing elements with
  | nil =>
      obtain rfl := List.eq_nil_of_length_eq_zero (Nat.le_zero.1 h)
      rfl
  | cons first names ih =>
      cases elements with
      | nil => rfl
      | cons e elements =>
          have hrest := ih elements (Nat.le_of_succ_le_succ h)
          rw [List.zip_cons_cons, List.lookup_cons, List.idxOf_cons]
          by_cases heq : name = first
          · subst heq
            simp
          · have hne : (first == name) = false := beq_eq_false_iff_ne.2 (Ne.symm heq)
            have hne' : (name == first) = false := beq_eq_false_iff_ne.2 heq
            rw [hne, hne', hrest]
            rfl

end Json

/-! ### Settings and their values -/

def Matching.name : Matching → String
  | caseSensitive => "caseSensitive"
  | caseInsensitive => "caseInsensitive"

theorem Matching.name_injective {a b : Matching} (h : a.name = b.name) : a = b := by
  revert h
  cases a <;> cases b <;> decide

namespace Settings

inductive Section where
  | completion
  | performance
  | diagnostics
deriving DecidableEq, Repr

def sectionNames : List String := ["completion", "performance", "diagnostics"]

namespace Section

def name : Section → String
  | completion => "completion"
  | performance => "performance"
  | diagnostics => "diagnostics"

def fieldNames : Section → List String
  | completion => ["matching"]
  | performance => ["maxConcurrent"]
  | diagnostics => ["openDelayMs", "changeDelayMs"]

theorem name_injective {a b : Section} (h : a.name = b.name) : a = b := by
  revert h
  cases a <;> cases b <;> decide

theorem eq_of_idxOf_eq {a b : Section} (h : sectionNames.idxOf a.name = sectionNames.idxOf b.name) :
    a = b := by
  revert h
  cases a <;> cases b <;> decide

end Section

end Settings

/-- What a client can adjust. -/
inductive Setting where
  | matching
  | maxConcurrent
  | openDelay
  | changeDelay
deriving DecidableEq, Repr

namespace Setting

open Json Settings

abbrev Value : Setting → Type
  | matching => Matching
  | maxConcurrent | openDelay | changeDelay => Nat

def sectionOf : Setting → Section
  | matching => .completion
  | maxConcurrent => .performance
  | openDelay | changeDelay => .diagnostics

def name : Setting → String
  | matching => "matching"
  | maxConcurrent => "maxConcurrent"
  | openDelay => "openDelayMs"
  | changeDelay => "changeDelayMs"

/-- What a settings value says about a setting. -/
def leaf? (k : Setting) (v : Json) : Option Json :=
  (v.field? sectionNames k.sectionOf.name).bind (Json.field? k.sectionOf.fieldNames k.name)

/-- A way to match names is written as its name, or as an object with that one member; a count is written as
an integer. -/
def Reads : (k : Setting) → Json → k.Value → Prop
  | matching, w, mode => w = .string mode.name ∨ w = .object [(mode.name, .null)]
  | maxConcurrent, w, n | openDelay, w, n | changeDelay, w, n => w = .integer n ∧ n < countLimit

/-- Whether a value is an adjustment.  Every value is one, but a limit of zero analyses. -/
def counts : (k : Setting) → k.Value → Bool
  | maxConcurrent, n => decide (0 < n)
  | matching, _ | openDelay, _ | changeDelay, _ => true

theorem not_reads_null (k : Setting) (x : k.Value) : ¬ k.Reads .null x := by
  cases k <;> simp [Reads]

/-- A leaf is read in one way only. -/
theorem eq_of_reads {k : Setting} {w : Json} {x y : k.Value} (hx : k.Reads w x) (hy : k.Reads w y) :
    x = y := by
  cases k with
  | matching =>
      have hname : x.name = y.name := by
        rcases hx with rfl | rfl <;> simpa [Reads] using hy
      exact Matching.name_injective hname
  | maxConcurrent | openDelay | changeDelay =>
      exact Int.ofNat_inj.1 (integer.inj (hx.1.symm.trans hy.1))

end Setting

namespace Settings

open Json

/-- What some adjustments say about a setting. -/
def get? (s : Settings) : (k : Setting) → Option k.Value
  | .matching => s.matching
  | .maxConcurrent => s.maxConcurrent
  | .openDelay => s.openDelay
  | .changeDelay => s.changeDelay

/-- The value and all its sections are records. -/
structure HasShape (v : Json) : Prop where
  whole : IsRecord sectionNames v
  parts : ∀ (a : Section) (w : Json), v.field? sectionNames a.name = some w → IsRecord a.fieldNames w

/-- A leaf that is missing or `null` says nothing, and any other leaf says what it is read as. -/
inductive Optionally {α : Type} (R : Json → α → Prop) : Option Json → Option α → Prop where
  | missing : Optionally R none none
  | null : Optionally R (some .null) none
  | given {w : Json} {a : α} (h : R w a) : Optionally R (some w) (some a)

/-! ### Reading a settings value -/

/-- The fields of a record are read off in the order of their names. -/
theorem fields_eq_ok_iff {names : List String} (hnames : names.Nodup) {v : Json}
    {values : List (Option Json)} :
    fields names v = .ok values ↔ IsRecord names v ∧ values = names.map (v.field? names ·) := by
  have helements (elements : List Json) : (List.range names.length).map (fun i => elements[i]?)
      = names.map ((Json.array elements).field? names ·) := by
    refine List.ext_getElem (by simp) fun i hi hi' => ?_
    simp only [List.getElem_map, List.getElem_range, field?]
    rw [hnames.idxOf_getElem]
  cases v with
  | object members =>
      simp only [fields, Except.ok.injEq, IsRecord.object, true_and]
      exact eq_comm
  | array elements =>
      by_cases hlength : elements.length ≤ names.length
      · rw [fields, if_pos hlength, Except.ok.injEq, helements]
        exact ⟨fun h => ⟨.array hlength, h.symm⟩, fun h => h.2.symm⟩
      · rw [fields, if_neg hlength]
        refine iff_of_false (fun h => ?_) fun h => hlength (isRecord_array_iff.1 h.1)
        cases h
  | _ =>
      constructor
      · intro h
        cases h
      · rintro ⟨hrecord, -⟩
        cases hrecord

theorem sectionFields_eq_ok_iff {names : List String} (hnames : names.Nodup) {o : Option Json}
    {values : List (Option Json)} :
    sectionFields names o = .ok values ↔ (∀ w, o = some w → IsRecord names w) ∧
      values = o.elim [] fun w => names.map (w.field? names ·) := by
  cases o with
  | none => simp [sectionFields, eq_comm]
  | some v => simp [sectionFields, fields_eq_ok_iff hnames]

theorem optional_eq_ok_iff {α : Type} {read : Json → Except SettingsError α} {R : Json → α → Prop}
    {o : Option Json} {x : Option α} (hread : ∀ w a, read w = .ok a ↔ R w a) (hnull : ∀ a, ¬ R .null a) :
    optional read o = .ok x ↔ Optionally R o x := by
  fun_cases optional read o with
  | case1 =>
      constructor
      · rintro ⟨⟩
        exact .missing
      · rintro ⟨⟩
        rfl
  | case2 =>
      constructor
      · rintro ⟨⟩
        exact .null
      · intro h
        cases h with
        | null => rfl
        | given h => exact absurd h (hnull _)
  | case3 v hv =>
      rw [bind_eq_ok_iff]
      constructor
      · rintro ⟨a, ha, ⟨⟩⟩
        exact .given ((hread v a).1 ha)
      · intro h
        cases h with
        | null => exact absurd rfl hv
        | given h => exact ⟨_, (hread v _).2 h, rfl⟩

theorem matchingOf_eq_ok_iff {w : Json} {mode : Matching} :
    matchingOf w = .ok mode ↔ Setting.matching.Reads w mode := by
  fun_cases matchingOf w with
  | case1 | case2 | case3 | case4 => cases mode <;> simp [Setting.Reads, Matching.name]
  | case5 hsensitive hinsensitive hsensitive' hinsensitive' =>
      cases mode <;> simp_all [Setting.Reads, Matching.name]

theorem countOf_eq_ok_iff {w : Json} {n : Nat} : countOf w = .ok n ↔ w = .integer n ∧ n < countLimit := by
  fun_cases countOf w with
  | case1 i h =>
      rw [Except.ok.injEq, integer.injEq]
      omega
  | case2 i h =>
      refine iff_of_false (fun h => nomatch h) ?_
      rintro ⟨⟨⟩, hn⟩
      exact h ⟨Int.natCast_nonneg n, Int.ofNat_lt.2 hn⟩
  | case3 _ hinteger =>
      refine iff_of_false (fun h => nomatch h) fun h => ?_
      exact hinteger n h.1

/-- A field of a section, by its number, is the field of that name. -/
theorem fieldAt_elim (o : Option Json) (names : List String) (i : Nat) :
    fieldAt (o.elim [] fun w => names.map (w.field? names ·)) i
      = o.bind fun w => names[i]?.bind (w.field? names ·) := by
  cases o with
  | none => rfl
  | some w =>
      show (names.map _)[i]?.join = names[i]?.bind _
      rw [List.getElem?_map]
      cases names[i]? with
      | none => rfl
      | some name => rfl

/-- Decoding succeeds for the values with records in the right places and leaves that can be read, and takes
over the leaves that are there. -/
theorem decode_eq_ok_iff {v : Json} {s : Settings} :
    decode v = .ok s ↔ HasShape v ∧ ∀ k : Setting, Optionally k.Reads (k.leaf? v) (s.get? k) := by
  have hmode {o : Option Json} {x : Option Matching} :
      optional matchingOf o = .ok x ↔ Optionally (Setting.Reads .matching) o x :=
    optional_eq_ok_iff (fun w a => matchingOf_eq_ok_iff) (Setting.not_reads_null .matching)
  have hcount {o : Option Json} {x : Option Nat} :
      optional countOf o = .ok x ↔ Optionally (fun w n => w = .integer (n : Nat) ∧ n < countLimit) o x :=
    optional_eq_ok_iff (fun w n => countOf_eq_ok_iff) (Setting.not_reads_null .maxConcurrent)
  -- Each step of the decoding is now a conjunct, and each conjunct is a part of the description.
  simp only [decode, bind_eq_ok_iff]
  constructor
  · rintro ⟨sections, hsections, completion, hcompletion, mode, hleaf₁, performance, hperformance, limit,
      hleaf₂, diagnostics, hdiagnostics, opening, hleaf₃, changing, hleaf₄, ⟨⟩⟩
    obtain ⟨hwhole, rfl⟩ := (fields_eq_ok_iff (by decide)).1 hsections
    obtain ⟨hrecord₁, rfl⟩ := (sectionFields_eq_ok_iff (by decide)).1 hcompletion
    obtain ⟨hrecord₂, rfl⟩ := (sectionFields_eq_ok_iff (by decide)).1 hperformance
    obtain ⟨hrecord₃, rfl⟩ := (sectionFields_eq_ok_iff (by decide)).1 hdiagnostics
    rw [fieldAt_elim] at hleaf₁ hleaf₂ hleaf₃ hleaf₄
    refine ⟨⟨hwhole, fun a => ?_⟩, fun k => ?_⟩
    · cases a with
      | completion => exact hrecord₁
      | performance => exact hrecord₂
      | diagnostics => exact hrecord₃
    · cases k with
      | matching => exact hmode.1 hleaf₁
      | maxConcurrent => exact hcount.1 hleaf₂
      | openDelay => exact hcount.1 hleaf₃
      | changeDelay => exact hcount.1 hleaf₄
  · rintro ⟨⟨hwhole, hparts⟩, hleaves⟩
    refine ⟨_, (fields_eq_ok_iff (by decide)).2 ⟨hwhole, rfl⟩,
      _, (sectionFields_eq_ok_iff (by decide)).2 ⟨hparts .completion, rfl⟩, s.matching, ?_,
      _, (sectionFields_eq_ok_iff (by decide)).2 ⟨hparts .performance, rfl⟩, s.maxConcurrent, ?_,
      _, (sectionFields_eq_ok_iff (by decide)).2 ⟨hparts .diagnostics, rfl⟩, s.openDelay, ?_,
      s.changeDelay, ?_, rfl⟩
    · rw [fieldAt_elim]
      exact hmode.2 (hleaves .matching)
    · rw [fieldAt_elim]
      exact hcount.2 (hleaves .maxConcurrent)
    · rw [fieldAt_elim]
      exact hcount.2 (hleaves .openDelay)
    · rw [fieldAt_elim]
      exact hcount.2 (hleaves .changeDelay)

/-- A value that can be read: `null`, or a record of records in which every leaf is missing, `null` or
written as a value of its setting. -/
def Readable (v : Json) : Prop :=
  v = .null ∨ HasShape v ∧
    ∀ (k : Setting) (w : Json), k.leaf? v = some w → w = .null ∨ ∃ x, k.Reads w x

/-- A value that can be read asks for a setting to be adjusted, and says to what. -/
def Asks (v : Json) (k : Setting) (x : k.Value) : Prop :=
  Readable v ∧ (∃ w, k.leaf? v = some w ∧ k.Reads w x) ∧ k.counts x = true

theorem exists_optionally {k : Setting} {o : Option Json} :
    (∃ x, Optionally k.Reads o x) ↔ ∀ w, o = some w → w = .null ∨ ∃ x, k.Reads w x := by
  constructor
  · rintro ⟨x, h⟩ w rfl
    cases h with
    | null => exact Or.inl rfl
    | given h => exact Or.inr ⟨_, h⟩
  · intro h
    cases o with
    | none => exact ⟨none, .missing⟩
    | some w =>
        rcases h w rfl with rfl | ⟨x, hx⟩
        · exact ⟨none, .null⟩
        · exact ⟨some x, .given hx⟩

/-- The values other than `null` that can be read are those that can be decoded. -/
theorem readable_iff {v : Json} (hv : v ≠ .null) : Readable v ↔ ∃ s, decode v = .ok s := by
  rw [Readable, or_iff_right hv]
  constructor
  · rintro ⟨hshape, hleaves⟩
    have hread (k : Setting) := exists_optionally.2 (hleaves k)
    obtain ⟨mode, hmode⟩ := hread .matching
    obtain ⟨limit, hlimit⟩ := hread .maxConcurrent
    obtain ⟨opening, hopening⟩ := hread .openDelay
    obtain ⟨changing, hchanging⟩ := hread .changeDelay
    refine ⟨⟨mode, limit, opening, changing⟩, decode_eq_ok_iff.2 ⟨hshape, fun k => ?_⟩⟩
    cases k with
    | matching => exact hmode
    | maxConcurrent => exact hlimit
    | openDelay => exact hopening
    | changeDelay => exact hchanging
  · rintro ⟨s, hs⟩
    obtain ⟨hshape, hleaves⟩ := decode_eq_ok_iff.1 hs
    exact ⟨hshape, fun k => exists_optionally.1 ⟨_, hleaves k⟩⟩

/-- A leaf is written as a value exactly if it says that value. -/
theorem Optionally.reads_iff {k : Setting} {o : Option Json} {found : Option k.Value}
    (h : Optionally k.Reads o found) {x : k.Value} : (∃ w, o = some w ∧ k.Reads w x) ↔ found = some x := by
  cases h with
  | missing => simp
  | null => simp [k.not_reads_null]
  | given hreads =>
      simp only [Option.some.injEq, exists_eq_left']
      constructor
      · intro hx
        exact Setting.eq_of_reads hreads hx
      · rintro rfl
        exact hreads

/-- What a value asks for is what it is decoded to, apart from a limit of zero analyses. -/
theorem asks_iff {v : Json} (hv : v ≠ .null) {s : Settings} (hs : decode v = .ok s) {k : Setting}
    {x : k.Value} : Asks v k x ↔ (s.get? k).filter k.counts = some x := by
  have hleaf := (decode_eq_ok_iff.1 hs).2 k
  rw [Asks, hleaf.reads_iff, Option.filter_eq_some_iff]
  exact and_iff_right ((readable_iff hv).2 ⟨s, hs⟩)

theorem not_asks_null (k : Setting) (x : k.Value) : ¬ Asks .null k x := by
  rintro ⟨-, ⟨w, hw, -⟩, -⟩
  cases hw

/-- A value asks for one thing only. -/
theorem eq_of_asks {v : Json} {k : Setting} {x y : k.Value} (hx : Asks v k x) (hy : Asks v k y) : x = y := by
  obtain ⟨-, ⟨w, hw, hreads⟩, -⟩ := hx
  obtain ⟨-, ⟨w', hw', hreads'⟩, -⟩ := hy
  obtain rfl := Option.some.inj (hw.symm.trans hw')
  exact Setting.eq_of_reads hreads hreads'

/-! ### Arrays in the place of objects -/

/-- Two records with the same fields. -/
structure SameRecord (names : List String) (v w : Json) : Prop where
  record_iff : IsRecord names v ↔ IsRecord names w
  field_eq : ∀ name, v.field? names name = w.field? names name

theorem SameRecord.refl (names : List String) (v : Json) : SameRecord names v v := ⟨Iff.rfl, fun _ => rfl⟩

theorem sameRecord_zip {names : List String} {elements : List Json}
    (h : elements.length ≤ names.length) :
    SameRecord names (.array elements) (.object (names.zip elements)) :=
  ⟨iff_of_true (.array h) (.object _), fun name => (lookup_zip name names elements h).symm⟩

/-- The second value is the first, with an array in the place of a record written out as an object: the array
is the whole value, or it is one of the sections, in an object or in an array of sections. -/
inductive SpellsOut : Json → Json → Prop where
  | whole {elements : List Json} (h : elements.length ≤ sectionNames.length) :
      SpellsOut (.array elements) (.object (sectionNames.zip elements))
  | inObject (a : Section) {elements : List Json} (h : elements.length ≤ a.fieldNames.length)
      (front back : List (String × Json)) :
      SpellsOut (.object (front ++ (a.name, .array elements) :: back))
        (.object (front ++ (a.name, .object (a.fieldNames.zip elements)) :: back))
  | inArray (a : Section) {elements : List Json} (h : elements.length ≤ a.fieldNames.length)
      (front back : List Json) (hplace : front.length = sectionNames.idxOf a.name) :
      SpellsOut (.array (front ++ .array elements :: back))
        (.array (front ++ .object (a.fieldNames.zip elements) :: back))

/-- Two values whose sections are the same records. -/
structure SameSections (v w : Json) : Prop where
  record_iff : IsRecord sectionNames v ↔ IsRecord sectionNames w
  rel : ∀ a : Section, Option.Rel (SameRecord a.fieldNames) (v.field? sectionNames a.name)
    (w.field? sectionNames a.name)

theorem rel_refl (names : List String) (o : Option Json) : Option.Rel (SameRecord names) o o := by
  cases o with
  | none => exact .none
  | some v => exact .some (.refl names v)

theorem isRecord_iff_of_rel {names : List String} {o o' : Option Json}
    (h : Option.Rel (SameRecord names) o o') :
    (∀ v, o = some v → IsRecord names v) ↔ ∀ v, o' = some v → IsRecord names v := by
  cases h with
  | none => exact Iff.rfl
  | some hsame => simp only [Option.some.injEq, forall_eq', hsame.record_iff]

theorem bind_field?_of_rel {names : List String} {o o' : Option Json}
    (h : Option.Rel (SameRecord names) o o') (name : String) :
    o.bind (field? names name) = o'.bind (field? names name) := by
  cases h with
  | none => rfl
  | some hsame => exact hsame.field_eq name

theorem rel_lookup {names : List String} {key name : String} {v w : Json}
    (h : name = key → SameRecord names v w) (front back : List (String × Json)) :
    Option.Rel (SameRecord names) ((front ++ (key, v) :: back).lookup name)
      ((front ++ (key, w) :: back).lookup name) := by
  induction front with
  | nil =>
      rw [List.nil_append, List.nil_append, List.lookup_cons, List.lookup_cons]
      by_cases hname : name = key
      · rw [hname, beq_self_eq_true]
        exact .some (h hname)
      · rw [beq_eq_false_iff_ne.2 hname]
        exact rel_refl names _
  | cons e front ih =>
      rw [List.cons_append, List.cons_append, List.lookup_cons, List.lookup_cons]
      cases name == e.1 with
      | true => exact rel_refl names _
      | false => exact ih

theorem rel_getElem? {names : List String} {v w : Json} (front back : List Json) {i : Nat}
    (h : i = front.length → SameRecord names v w) :
    Option.Rel (SameRecord names) (front ++ v :: back)[i]? (front ++ w :: back)[i]? := by
  induction front generalizing i with
  | nil =>
      cases i with
      | zero => exact .some (h rfl)
      | succ i => exact rel_refl names _
  | cons e front ih =>
      cases i with
      | zero => exact rel_refl names _
      | succ i => exact ih fun hi => h (congrArg Nat.succ hi)

theorem sameSections_of_spellsOut {v w : Json} (h : SpellsOut v w) : SameSections v w := by
  cases h with
  | whole h =>
      have hsame := sameRecord_zip h
      refine ⟨hsame.record_iff, fun a => ?_⟩
      rw [hsame.field_eq]
      exact rel_refl _ _
  | inObject a h front back =>
      refine ⟨iff_of_true (.object _) (.object _), fun b => rel_lookup (fun hname => ?_) front back⟩
      rw [Section.name_injective hname]
      exact sameRecord_zip h
  | inArray a h front back hplace =>
      refine ⟨?_, fun b => rel_getElem? front back fun hindex => ?_⟩
      · rw [isRecord_array_iff, isRecord_array_iff, List.length_append, List.length_append,
          List.length_cons, List.length_cons]
      · rw [Section.eq_of_idxOf_eq (hindex.trans hplace)]
        exact sameRecord_zip h

theorem SameSections.hasShape_iff {v w : Json} (h : SameSections v w) : HasShape v ↔ HasShape w := by
  constructor
  · intro hv
    exact ⟨h.record_iff.1 hv.whole, fun a => (isRecord_iff_of_rel (h.rel a)).1 (hv.parts a)⟩
  · intro hw
    exact ⟨h.record_iff.2 hw.whole, fun a => (isRecord_iff_of_rel (h.rel a)).2 (hw.parts a)⟩

/-- A record in the place of an array of its fields is decoded alike. -/
theorem decode_of_spellsOut {v w : Json} (h : SpellsOut v w) : decode v = decode w := by
  have hsame := sameSections_of_spellsOut h
  have hleaf (k : Setting) : k.leaf? v = k.leaf? w := bind_field?_of_rel (hsame.rel k.sectionOf) k.name
  have hiff (s : Settings) : decode v = .ok s ↔ decode w = .ok s := by
    simp only [decode_eq_ok_iff, hsame.hasShape_iff, hleaf]
  cases hw : decode w with
  | ok s => exact (hiff s).2 hw
  | error e =>
      cases hv : decode v with
      | ok s => exact absurd ((hiff s).1 hv) (by rw [hw]; exact fun h => nomatch h)
      | error e' => rfl

end Settings

end RexxService
