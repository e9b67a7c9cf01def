import Mathlib.Data.List.Nodup
import RexxService.Proofs.Completion.Modes
import RexxService.Proofs.Symbols.Occurrences

/-!
# The names that completion offers

Completion offers names of variables, then labels, then functions, then keywords.  A variable is offered
one step at a time: each beginning of its name up to a dot, and the whole name.  Names share their steps,
so the list is kept free of repetitions while it is made; that each step is there once, and in which order,
is what `ListsSteps` says of the finished list.

* **`IsStep`**, **`mem_steps_iff`** — the steps of a name;
* **`ListsSteps`** — the names to offer for some variables, one variable after the other;
* **`listsSteps_variableNames`** — these are the names that are offered;
* **`nodup_entries`** — nothing is offered twice as the same;
* **`completion_lists_names`** — the items of completion at a position.
-/

namespace RexxService

open RexxService.Text

namespace Completion

/-! ### Steps of a name -/

/-- A text is a step of a name: it is the whole name, or a beginning of it that ends in a dot. -/
def IsStep (s name : String) : Prop :=
  s = name ∨ s.toList <+: name.toList ∧ s.toList.getLast? = some '.'

instance (s name : String) : Decidable (IsStep s name) := inferInstanceAs (Decidable (_ ∨ _))

theorem nil_notMem_steps (cs : List Char) : [] ∉ steps cs := by
  fun_cases steps cs with
  | case1 => simp
  | case2 c => simp
  | case3 d cs longer => simp [longer]
  | case4 c d cs longer hc => simp [longer]

theorem cons_mem_steps_iff {c d e : Char} {cs s : List Char} :
    e :: s ∈ steps (c :: d :: cs) ↔ e = c ∧ (s = [] ∧ c = '.' ∨ s ∈ steps (d :: cs)) := by
  have hlonger : e :: s ∈ (steps (d :: cs)).map (c :: ·) ↔ e = c ∧ s ∈ steps (d :: cs) := by
    rw [List.mem_map]
    constructor
    · rintro ⟨s', hs', heq⟩
      obtain ⟨rfl, rfl⟩ := List.cons.inj heq
      exact ⟨rfl, hs'⟩
    · rintro ⟨rfl, hs⟩
      exact ⟨s, hs, rfl⟩
  rw [steps]
  split
  · rename_i hc
    rw [List.mem_cons, hlonger, List.cons.injEq, ← and_or_left, and_iff_left hc]
  · rename_i hc
    rw [hlonger, or_iff_right fun h => hc h.2]

/-- The steps of a name are what is not empty of it and its beginnings up to a dot. -/
theorem mem_steps_iff {cs s : List Char} :
    s ∈ steps cs ↔ s ≠ [] ∧ (s = cs ∨ s <+: cs ∧ s.getLast? = some '.') := by
  induction cs using steps.induct generalizing s with
  | case1 => simp +contextual [steps]
  | case2 c =>
      rw [steps, List.mem_singleton]
      constructor
      · rintro rfl
        exact ⟨List.cons_ne_nil c [], Or.inl rfl⟩
      · rintro ⟨hne, rfl | ⟨hs, -⟩⟩
        · rfl
        · exact hs.eq_of_length_le (List.length_pos_iff.2 hne)
  | case3 d cs ih | case4 c d cs hc ih =>
      rcases s with _ | ⟨e, _ | ⟨f, s⟩⟩
      · exact iff_of_false (nil_notMem_steps _) (fun h => h.1 rfl)
      · rw [cons_mem_steps_iff, ih]
        simp +contextual
      · rw [cons_mem_steps_iff, ih]
        simp [and_or_left, and_assoc]

theorem mem_stepsBeyond_iff {typed : Nat} {name s : String} :
    s ∈ stepsBeyond typed name ↔ typed < s.length ∧ IsStep s name := by
  rw [mem_stepsBeyond, mem_steps_iff, String.length_toList, IsStep, String.toList_inj]
  refine ⟨fun h => ⟨h.2, h.1.2⟩, fun h => ⟨⟨?_, h.2⟩, h.1⟩⟩
  rw [← List.length_pos_iff, String.length_toList]
  omega

theorem pairwise_steps (cs : List Char) : (steps cs).Pairwise fun s t => s.length < t.length := by
  induction cs using steps.induct with
  | case1 => exact .nil
  | case2 c => exact List.pairwise_singleton _ _
  | case3 d cs ih =>
      rw [steps, if_pos rfl, List.pairwise_cons, List.pairwise_map]
      refine ⟨?_, ih.imp Nat.succ_lt_succ⟩
      intro t ht
      obtain ⟨s, hs, rfl⟩ := List.mem_map.1 ht
      exact Nat.succ_lt_succ (List.length_pos_iff.2 (mem_steps_iff.1 hs).1)
  | case4 c d cs hc ih =>
      rw [steps, if_neg hc, List.pairwise_map]
      exact ih.imp Nat.succ_lt_succ

theorem pairwise_stepsBeyond (typed : Nat) (name : String) :
    (stepsBeyond typed name).Pairwise fun a b => a.length < b.length := by
  rw [stepsBeyond, List.pairwise_map]
  refine ((pairwise_steps name.toList).filter _).imp fun h => ?_
  rw [String.length_ofList, String.length_ofList]
  exact h

/-! ### Names for variables -/

/-- The number of the first variable that fits and has the text as a step. -/
def firstSource (fits : String → Bool) (vars : List Token) (s : String) : Nat :=
  vars.findIdx fun v => fits v.text && decide (IsStep s v.text)

/-- The names to offer for some variables: the steps of those that fit, if they are longer than what has
been typed, each of them once, in the order of the first variable that they are a step of, and then of
their lengths. -/
structure ListsSteps (fits : String → Bool) (typed : Nat) (vars : List Token)
    (names : List String) : Prop where
  mem_iff : ∀ s, s ∈ names ↔
    typed < s.length ∧ ∃ v ∈ vars, fits v.text = true ∧ IsStep s v.text
  nodup : names.Nodup
  ordered : names.Pairwise fun a b => firstSource fits vars a < firstSource fits vars b ∨
    firstSource fits vars a = firstSource fits vars b ∧ a.length < b.length

variable {fits : String → Bool} {typed : Nat} {v : Token} {vars : List Token} {names : List String}

theorem firstSource_cons_of_step {s : String} (hv : fits v.text = true) (hs : IsStep s v.text) :
    firstSource fits (v :: vars) s = 0 := by
  rw [firstSource, List.findIdx_cons, hv, decide_eq_true hs]
  rfl

theorem firstSource_cons_of_not {s : String} (h : ¬ (fits v.text = true ∧ IsStep s v.text)) :
    firstSource fits (v :: vars) s = firstSource fits vars s + 1 := by
  have hfalse : (fits v.text && decide (IsStep s v.text)) = false := by
    rw [← Bool.not_eq_true, Bool.and_eq_true, decide_eq_true_iff]
    exact h
  rw [firstSource, List.findIdx_cons, hfalse]
  rfl

namespace ListsSteps

theorem nil : ListsSteps fits typed [] [] where
  mem_iff := by simp
  nodup := .nil
  ordered := .nil

/-- A variable that does not fit adds nothing. -/
theorem skip (hv : fits v.text = false) (h : ListsSteps fits typed vars names) :
    ListsSteps fits typed (v :: vars) names where
  mem_iff := by
    intro s
    rw [h.mem_iff]
    simp [hv]
  nodup := h.nodup
  ordered := by
    have hnot (s : String) : ¬ (fits v.text = true ∧ IsStep s v.text) := by simp [hv]
    simpa only [firstSource_cons_of_not (hnot _), Nat.add_lt_add_iff_right, Nat.add_right_cancel_iff]
      using h.ordered

/-- A variable that fits puts its own steps in front of all others. -/
theorem take (hv : fits v.text = true) (h : ListsSteps fits typed vars names) :
    ListsSteps fits typed (v :: vars)
      (stepsBeyond typed v.text ++ names.filter fun s => !(stepsBeyond typed v.text).contains s) := by
  have hordered : (stepsBeyond typed v.text ++
      names.filter fun s => !(stepsBeyond typed v.text).contains s).Pairwise fun a b =>
        firstSource fits (v :: vars) a < firstSource fits (v :: vars) b ∨
          firstSource fits (v :: vars) a = firstSource fits (v :: vars) b ∧ a.length < b.length := by
    have hown {s : String} (hs : s ∈ stepsBeyond typed v.text) : firstSource fits (v :: vars) s = 0 :=
      firstSource_cons_of_step hv (mem_stepsBeyond_iff.1 hs).2
    have hother {s : String} (hs : s ∈ names.filter fun s => !(stepsBeyond typed v.text).contains s) :
        firstSource fits (v :: vars) s = firstSource fits vars s + 1 := by
      obtain ⟨hs, hnew⟩ := List.mem_filter.1 hs
      refine firstSource_cons_of_not fun hstep => ?_
      have hmem := mem_stepsBeyond_iff.2 ⟨((h.mem_iff s).1 hs).1, hstep.2⟩
      simp [hmem] at hnew
    refine List.pairwise_append.2 ⟨?_, ?_, ?_⟩
    · refine (pairwise_stepsBeyond typed v.text).imp_of_mem fun ha hb hlt => ?_
      exact Or.inr ⟨(hown ha).trans (hown hb).symm, hlt⟩
    · refine (h.ordered.filter _).imp_of_mem fun ha hb hab => ?_
      rw [hother ha, hother hb]
      omega
    · intro a ha b hb
      rw [hown ha, hother hb]
      exact Or.inl (Nat.succ_pos _)
  refine ⟨fun s => ?_, hordered.imp fun {a b} hab heq => ?_, hordered⟩
  · have hmem : s ∈ stepsBeyond typed v.text ++
        names.filter (fun s => !(stepsBeyond typed v.text).contains s) ↔
          s ∈ stepsBeyond typed v.text ∨ s ∈ names := by
      by_cases hs : s ∈ stepsBeyond typed v.text <;> simp [hs]
    rw [hmem, mem_stepsBeyond_iff, h.mem_iff, ← and_or_left]
    simp [hv]
  · subst heq
    omega

end ListsSteps

theorem eraseDups_of_nodup {names : List String} (h : names.Nodup) : names.eraseDups = names := by
  induction names with
  | nil => rfl
  | cons name names ih =>
      obtain ⟨hname, hnames⟩ := List.nodup_cons.1 h
      rw [List.eraseDups_cons, List.filter_eq_self.2, ih hnames]
      intro other hother
      rw [beq_false_of_ne (ne_of_mem_of_not_mem hother hname)]
      rfl

namespace Prompt

variable {q : Prompt} {mode : Matching}

theorem variableNames_cons_of_not (hv : q.admits mode v.text = false) :
    q.variableNames mode (v :: vars) = q.variableNames mode vars := by
  rw [variableNames, variableNames, List.map_cons, List.filter_cons_of_neg (by simp [hv])]

/-- The steps of the first variable come first, and are left out of those of the others. -/
theorem variableNames_cons (hv : q.admits mode v.text = true) :
    q.variableNames mode (v :: vars) = stepsBeyond q.typed.length v.text ++
      (q.variableNames mode vars).filter
        fun s => !(stepsBeyond q.typed.length v.text).contains s := by
  have hnodup : (stepsBeyond q.typed.length v.text).Nodup := by
    refine (pairwise_stepsBeyond q.typed.length v.text).imp fun hlt heq => ?_
    exact absurd hlt (by rw [heq]; exact Nat.lt_irrefl _)
  rw [variableNames, variableNames, List.map_cons, List.filter_cons_of_pos hv, List.flatMap_cons,
    List.eraseDups_append, eraseDups_of_nodup hnodup, filter_eraseDups]
  rfl

/-- The names that are offered for variables. -/
theorem listsSteps_variableNames (q : Prompt) (mode : Matching) (vars : List Token) :
    ListsSteps (q.admits mode) q.typed.length vars (q.variableNames mode vars) := by
  induction vars with
  | nil => exact .nil
  | cons v vars ih =>
      cases hv : q.admits mode v.text with
      | false =>
          rw [variableNames_cons_of_not hv]
          exact ih.skip hv
      | true =>
          rw [variableNames_cons hv]
          exact ih.take hv

end Prompt

/-! ### Items -/

def Item.entry (i : Item) : Kind × String := (i.kind, i.name)

theorem map_entry_offer (q : Prompt) (kind : Kind) (names : List String) :
    (q.offer kind names).map Item.entry = names.map (kind, ·) := by
  rw [Prompt.offer, List.map_map]
  rfl

theorem map_entry_offered (q : Prompt) (m : Model) (mode : Matching) :
    (q.offered m mode).map Item.entry
      = (q.variableNames mode m.vars).map (Kind.var, ·)
        ++ (q.labelNames mode m.labels).map (Kind.label, ·)
        ++ (q.builtinNames mode Vocabulary.functions).map (Kind.function, ·)
        ++ (q.builtinNames mode Vocabulary.keywords).map (Kind.keyword, ·) := by
  simp only [Prompt.offered, List.map_append, map_entry_offer]

theorem nodup_builtinNames (q : Prompt) (mode : Matching) {words : List String} (h : words.Nodup) :
    (q.builtinNames mode words).Nodup := by
  rw [Prompt.builtinNames]
  split
  · exact .nil
  · exact h.filter _

/-- Nothing is offered twice as the same, if no label has the text of another one. -/
theorem nodup_entries (q : Prompt) {m : Model} (mode : Matching)
    (hlabels : (m.labels.map (·.text)).Nodup) : ((q.offered m mode).map Item.entry).Nodup := by
  have hkind {kind : Kind} {names : List String} (h : names.Nodup) :
      (names.map (kind, ·)).Nodup := List.Nodup.map (fun _ _ heq => (Prod.mk.inj heq).2) h
  have hfunctions : Vocabulary.functions.Nodup := by decide +kernel
  have hkeywords : Vocabulary.keywords.Nodup := by decide +kernel
  have hapart {kind kind' : Kind} (hne : kind ≠ kind') {names names' : List String} :
      ∀ a ∈ names.map (kind, ·), ∀ b ∈ names'.map (kind', ·), a ≠ b := by
    intro a ha b hb heq
    obtain ⟨_, -, rfl⟩ := List.mem_map.1 ha
    obtain ⟨_, -, rfl⟩ := List.mem_map.1 hb
    exact hne (Prod.mk.inj heq).1
  rw [map_entry_offered, List.nodup_append, List.nodup_append, List.nodup_append]
  refine ⟨⟨⟨hkind (q.listsSteps_variableNames mode m.vars).nodup, hkind (hlabels.filter _),
    hapart (by decide)⟩, hkind (nodup_builtinNames q mode hfunctions), ?_⟩,
    hkind (nodup_builtinNames q mode hkeywords), ?_⟩
  · exact List.forall_mem_append.2 ⟨hapart (by decide), hapart (by decide)⟩
  · exact List.forall_mem_append.2
      ⟨List.forall_mem_append.2 ⟨hapart (by decide), hapart (by decide)⟩, hapart (by decide)⟩

end Completion

namespace Model

/-- No two labels of a text have the same text. -/
theorem nodup_labels (uri text : String) : ((parse uri text).labels.map (·.text)).Nodup := by
  rw [parse_labels, List.nodup_iff_pairwise_ne, List.pairwise_map]
  refine (NameTable.pairwise_sorted _).imp fun hlt heq => ?_
  rw [heq] at hlt
  exact String.lt_irrefl _ hlt

end Model

open Completion

/-- The prompt after an anchor has what has been typed, if its place can be counted. -/
theorem exists_promptAt (t : Token) (place : Position) :
    (∃ range, promptAt t place
        = .ok ⟨if t.kind.isOpening then "" else t.text, t.kind.isOpening, range⟩) ∨
      ∃ cause, t.span = .error cause ∧ promptAt t place = .error cause := by
  cases hopening : t.kind.isOpening with
  | true => exact Or.inl ⟨_, promptAt_of_opening hopening⟩
  | false =>
      rw [promptAt_of_not_opening hopening]
      cases hspan : t.span with
      | ok range => exact Or.inl ⟨range, rfl⟩
      | error cause => exact Or.inr ⟨cause, rfl, rfl⟩

/-- **Completion offers the names that fit, each of them once.**  Take any text, any place whose anchor is
not a comment, and any mode.  The items are the steps of the variables that fit what has been typed, then
the labels that fit, then, if anything has been typed, the functions and the keywords that fit, in the
orders of their lists; no two of them have the same kind and the same name.  Only in a text of more units
than can be counted, where the end of the anchor is past counting, completion fails. -/
theorem completion_lists_names (uri text : String) (place : Position) (mode : Matching) {t : Token}
    (hanchor : (Model.parse uri text).anchor place = .ok (some t))
    (hcomment : t.kind.isComment = false) :
    let m := Model.parse uri text
    let typed := if t.kind.isOpening then "" else t.text
    let fits := fun name => t.kind.isOpening || mode.accepts typed name
    let builtins := fun words : List String =>
      if typed.isEmpty then [] else words.filter (mode.accepts typed)
    (∃ items names, m.complete .fresh place mode = .ok items ∧
      ListsSteps fits typed.length m.vars names ∧
      items.map Item.entry
        = names.map (Kind.var, ·) ++ ((m.labels.map (·.text)).filter fits).map (Kind.label, ·)
          ++ (builtins Vocabulary.functions).map (Kind.function, ·)
          ++ (builtins Vocabulary.keywords).map (Kind.keyword, ·) ∧
      (items.map Item.entry).Nodup) ∨
    (Counter.placeLimit ≤ units text.toList ∧ ∃ cause, t.span = .error cause ∧
      m.complete .fresh place mode = .error (.overflow cause)) := by
  intro m typed fits builtins
  rcases exists_promptAt t place with ⟨range, hprompt⟩ | ⟨cause, hspan, hprompt⟩
  · let q : Prompt := ⟨typed, t.kind.isOpening, range⟩
    exact Or.inl ⟨q.offered m mode, q.variableNames mode m.vars,
      Model.complete_of_prompt hanchor hcomment hprompt mode, q.listsSteps_variableNames mode m.vars,
      map_entry_offered q m mode, nodup_entries q mode (Model.nodup_labels uri text)⟩
  · have hfails := Model.complete_of_prompt_error hanchor hcomment hprompt mode
    refine Or.inr ⟨Nat.not_lt.1 fun hunits => ?_, cause, hspan, hfails⟩
    obtain ⟨items, hitems, -⟩ := Model.complete_name_text hunits place mode
    cases hitems.symm.trans hfails

/-- After a stem, the steps of a name that begins with it in another case are offered as well. -/
theorem completion_lists_names_stem :
    let m := Model.parse "a" "a.1.b = 1\nA.2 = 2\nsay a."
    let range : Span := ⟨⟨2, 4⟩, ⟨2, 6⟩⟩
    m.anchor ⟨2, 6⟩ = .ok (some ⟨.identifier, "a.", 2, 4, 22, 24⟩) ∧
      m.complete .fresh ⟨2, 6⟩ .caseInsensitive
        = .ok [⟨.var, "a.1.", range⟩, ⟨.var, "a.1.b", range⟩, ⟨.var, "A.2", range⟩] ∧
      ListsSteps (Matching.caseInsensitive.accepts "a.") 2 m.vars ["a.1.", "a.1.b", "A.2"] := by
  intro m range
  have hanchor : m.anchor ⟨2, 6⟩ = .ok (some ⟨.identifier, "a.", 2, 4, 22, 24⟩) :=
    eq_ok_of_toOption (by decide +kernel)
  have hcomplete : m.complete .fresh ⟨2, 6⟩ .caseInsensitive
      = .ok [⟨.var, "a.1.", range⟩, ⟨.var, "a.1.b", range⟩, ⟨.var, "A.2", range⟩] :=
    eq_ok_of_toOption (by decide +kernel)
  refine ⟨hanchor, hcomplete, ?_⟩
  rcases completion_lists_names "a" _ ⟨2, 6⟩ .caseInsensitive hanchor rfl with
    ⟨items, names, hitems, hnames, hentries, -⟩ | ⟨hlong, -⟩
  · obtain rfl := Except.ok.inj (hcomplete.symm.trans hitems)
    have hvars := congrArg (List.filterMap fun e => if e.1 = Kind.var then some e.2 else none) hentries
    simp only [List.filterMap_append, List.filterMap_map, Function.comp_def, reduceCtorEq, if_true,
      if_false, List.filterMap_some, List.filterMap_none, List.append_nil] at hvars
    rw [← hvars] at hnames
    exact hnames
  · exact absurd hlong (by decide)

end RexxService
