import RexxService.Proofs.Model.Ranges
import RexxService.Proofs.Text.Lowercase

/-!
# The two modes of matching

Whoever ignores case should be offered whatever is offered to those who do not.  This is so unless the
typed text ends a word in a capital sigma and a name goes on with that word: then the lowercase form of
the name does not begin with the lowercase form of the typed text, and the name is not offered
(`sensitive_offers_more`).

* **`resumesWord`** — a name that goes on with the last word of the typed text, after a capital sigma;
* **`accepts_insensitive`** — of the names that begin with the typed text, just these are refused;
* **`filter_stepsBeyond`**, **`filter_eraseDups`** — the steps of a name, and the names that are offered
  once, of those that extend the typed text;
* **`offered_sensitive_iff`** — when the items of the one mode are some of the items of the other;
* **`sensitive_restricts_iff`** — the same for completion at a position.
-/

namespace RexxService

open RexxService.Text

namespace Matching

/-- Whether a name begins with the typed text and goes on with its last word, which the typed text alone
ends in a capital sigma. -/
def resumesWord (typed name : String) : Bool :=
  begins name typed && endsInSigma [] typed.toList &&
    startsCased (name.toList.drop typed.toList.length)

variable {typed name : String}

theorem begins_iff : begins name typed = true ↔ typed.toList <+: name.toList :=
  List.isPrefixOf_iff_prefix

theorem accepts_sensitive :
    caseSensitive.accepts typed name = true ↔ typed.toList <+: name.toList ∧ name ≠ typed := by
  rw [accepts, Bool.and_eq_true, begins_iff, bne_iff_ne]

theorem resumesWord_eq {rest : List Char} (h : typed.toList ++ rest = name.toList) :
    resumesWord typed name = (endsInSigma [] typed.toList && startsCased rest) := by
  rw [resumesWord, begins_iff.2 ⟨rest, h⟩, Bool.true_and, ← h, List.drop_left]

theorem isPrefix_of_resumesWord (h : resumesWord typed name = true) :
    typed.toList <+: name.toList := by
  simp only [resumesWord, Bool.and_eq_true, begins_iff] at h
  exact h.1.1

/-- Of the names that begin with the typed text, those that go on with its last word are refused. -/
theorem accepts_insensitive (h : typed.toList <+: name.toList) :
    caseInsensitive.accepts typed name = !resumesWord typed name := by
  obtain ⟨rest, hrest⟩ := h
  have hlower := isPrefix_lowerFrom_iff [] typed.toList rest
  rw [hrest] at hlower
  rw [resumesWord_eq hrest, Bool.eq_iff_iff, accepts, begins_iff, lowercase, lowercase,
    String.toList_ofList, String.toList_ofList, Bool.not_eq_true', ← Bool.not_eq_true, Bool.and_eq_true]
  exact hlower

theorem ne_of_resumesWord (h : resumesWord typed name = true) : name ≠ typed := by
  rintro rfl
  rw [resumesWord_eq (List.append_nil _), Bool.and_eq_true] at h
  cases h.2

/-- What goes on with the last word does so no matter what follows. -/
theorem resumesWord_of_isPrefix {longer : String} (h : resumesWord typed name = true)
    (hlonger : name.toList <+: longer.toList) : resumesWord typed longer = true := by
  obtain ⟨mid, hmid⟩ := isPrefix_of_resumesWord h
  obtain ⟨rest, hrest⟩ := hlonger
  rw [resumesWord_eq hmid, Bool.and_eq_true] at h
  rw [← hmid, List.append_assoc] at hrest
  rw [resumesWord_eq hrest, h.1, startsCased_append_left h.2, Bool.true_and]

theorem mem_of_resumesWord (h : resumesWord typed name = true) : 'Σ' ∈ name.toList := by
  obtain ⟨rest, hrest⟩ := isPrefix_of_resumesWord h
  rw [resumesWord_eq hrest, Bool.and_eq_true] at h
  rw [← hrest]
  exact List.mem_append_left rest (mem_of_endsInSigma h.1)

/-- Names that do not go on with the last word are offered to those who ignore case if they are offered
to those who do not. -/
theorem filter_accepts {names : List String} (h : ∀ name ∈ names, resumesWord typed name = false) :
    names.filter (caseSensitive.accepts typed)
      = (names.filter (caseInsensitive.accepts typed)).filter (caseSensitive.accepts typed) := by
  rw [List.filter_filter]
  refine List.filter_congr fun name hname => ?_
  cases haccepts : caseSensitive.accepts typed name with
  | false => rfl
  | true =>
      rw [accepts_insensitive (accepts_sensitive.1 haccepts).1, h name hname]
      rfl

end Matching

namespace Completion

open Matching

/-! ### Steps of a name -/

theorem isPrefix_of_mem_steps {cs s : List Char} (h : s ∈ steps cs) : s <+: cs := by
  induction cs using steps.induct generalizing s with
  | case1 => cases h
  | case2 c =>
      obtain rfl := List.mem_singleton.1 h
      exact List.prefix_refl _
  | case3 d cs ih =>
      rw [steps, if_pos rfl] at h
      rcases List.mem_cons.1 h with rfl | h
      · exact ⟨d :: cs, rfl⟩
      · obtain ⟨s, hs, rfl⟩ := List.mem_map.1 h
        exact List.cons_prefix_cons.2 ⟨rfl, ih hs⟩
  | case4 c d cs hc ih =>
      rw [steps, if_neg hc] at h
      obtain ⟨s, hs, rfl⟩ := List.mem_map.1 h
      exact List.cons_prefix_cons.2 ⟨rfl, ih hs⟩

theorem mem_steps_self {cs : List Char} (h : cs ≠ []) : cs ∈ steps cs := by
  induction cs using steps.induct with
  | case1 => exact absurd rfl h
  | case2 c => exact List.mem_singleton_self _
  | case3 d cs ih =>
      rw [steps, if_pos rfl]
      exact List.mem_cons_of_mem _ (List.mem_map_of_mem (ih (List.cons_ne_nil d cs)))
  | case4 c d cs hc ih =>
      rw [steps, if_neg hc]
      exact List.mem_map_of_mem (ih (List.cons_ne_nil d cs))

theorem mem_stepsBeyond {typed : Nat} {name s : String} :
    s ∈ stepsBeyond typed name ↔ s.toList ∈ steps name.toList ∧ typed < s.toList.length := by
  rw [stepsBeyond, List.mem_map]
  constructor
  · rintro ⟨cs, hcs, rfl⟩
    obtain ⟨hstep, hlength⟩ := List.mem_filter.1 hcs
    rw [String.toList_ofList]
    exact ⟨hstep, of_decide_eq_true hlength⟩
  · rintro ⟨hstep, hlength⟩
    exact ⟨s.toList, List.mem_filter.2 ⟨hstep, decide_eq_true hlength⟩, String.ofList_toList⟩

/-- A name that extends the typed text is the last of its own steps. -/
theorem mem_stepsBeyond_self {typed name : String} (h : caseSensitive.accepts typed name = true) :
    name ∈ stepsBeyond typed.length name := by
  obtain ⟨hfront, hne⟩ := accepts_sensitive.1 h
  have hlength : typed.toList.length < name.toList.length := by
    refine lt_of_le_of_ne hfront.length_le fun hlength => hne ?_
    exact (String.toList_injective (hfront.eq_of_length hlength)).symm
  rw [mem_stepsBeyond, ← String.length_toList]
  exact ⟨mem_steps_self (List.ne_nil_of_length_pos (by omega)), hlength⟩

/-- A step beyond the typed text extends the typed text if the name does. -/
theorem accepts_of_mem_stepsBeyond {typed name s : String} (h : s ∈ stepsBeyond typed.length name) :
    caseSensitive.accepts typed s = caseSensitive.accepts typed name := by
  obtain ⟨hstep, hlength⟩ := mem_stepsBeyond.1 h
  have hfront := isPrefix_of_mem_steps hstep
  rw [← String.length_toList] at hlength
  have hne (other : String) (hother : typed.toList.length < other.toList.length) : other ≠ typed := by
    rintro rfl
    exact absurd hother (lt_irrefl _)
  rw [Bool.eq_iff_iff, accepts_sensitive, accepts_sensitive]
  constructor
  · rintro ⟨htyped, -⟩
    exact ⟨htyped.trans hfront, hne name (hlength.trans_le hfront.length_le)⟩
  · rintro ⟨htyped, -⟩
    exact ⟨List.prefix_of_prefix_length_le htyped hfront hlength.le, hne s hlength⟩

/-- The steps that extend the typed text are the steps of the names that do. -/
theorem filter_stepsBeyond (typed : String) (names : List String) :
    (names.flatMap (stepsBeyond typed.length)).filter (caseSensitive.accepts typed)
      = (names.filter (caseSensitive.accepts typed)).flatMap (stepsBeyond typed.length) := by
  induction names with
  | nil => rfl
  | cons name names ih =>
      rw [List.flatMap_cons, List.filter_append, ih, List.filter_cons]
      cases haccepts : caseSensitive.accepts typed name with
      | true =>
          rw [List.filter_eq_self.2 fun s hs => (accepts_of_mem_stepsBeyond hs).trans haccepts]
          rfl
      | false =>
          rw [List.filter_eq_nil_iff.2 fun s hs => by
            rw [accepts_of_mem_stepsBeyond hs, haccepts]
            exact Bool.false_ne_true]
          rfl

/-- Leaving names out and leaving repetitions out can be done in either order. -/
theorem filter_eraseDups (p : String → Bool) (names : List String) :
    names.eraseDups.filter p = (names.filter p).eraseDups := by
  cases names with
  | nil => rfl
  | cons name names =>
      have ih := filter_eraseDups p (names.filter fun other => !other == name)
      rw [List.eraseDups_cons, List.filter_cons, List.filter_cons, ih, List.filter_filter]
      cases hname : p name with
      | true =>
          rw [if_pos rfl, if_pos rfl, List.eraseDups_cons, List.filter_filter]
          simp only [Bool.and_comm]
      | false =>
          -- The name is left out anyway, so it does not matter that its repetitions are.
          rw [if_neg Bool.false_ne_true, if_neg Bool.false_ne_true]
          refine congrArg List.eraseDups (List.filter_congr fun other _ => ?_)
          by_cases hother : other = name
          · rw [hother, hname]
            rfl
          · rw [beq_false_of_ne hother, Bool.not_false, Bool.and_true]
termination_by names.length
decreasing_by
  exact Nat.lt_succ_of_le (List.length_filter_le _ _)

/-! ### Items for a prompt -/

namespace Prompt

variable {q : Prompt} {m : Model}

theorem admits_eq (hq : q.unrestricted = false) (mode : Matching) :
    q.admits mode = mode.accepts q.typed := by
  funext name
  rw [admits, hq, Bool.false_or]

theorem variableNames_sensitive (hq : q.unrestricted = false) {vars : List Token}
    (h : ∀ v ∈ vars, resumesWord q.typed v.text = false) :
    q.variableNames .caseSensitive vars
      = (q.variableNames .caseInsensitive vars).filter (caseSensitive.accepts q.typed) := by
  have hnames : ∀ name ∈ vars.map (·.text), resumesWord q.typed name = false :=
    List.forall_mem_map.2 h
  rw [variableNames, variableNames, admits_eq hq, admits_eq hq, filter_eraseDups, filter_stepsBeyond,
    filter_accepts hnames]

theorem labelNames_sensitive (hq : q.unrestricted = false) {labels : List Token}
    (h : ∀ v ∈ labels, resumesWord q.typed v.text = false) :
    q.labelNames .caseSensitive labels
      = (q.labelNames .caseInsensitive labels).filter (caseSensitive.accepts q.typed) := by
  rw [labelNames, labelNames, admits_eq hq, admits_eq hq]
  exact filter_accepts (List.forall_mem_map.2 h)

/-- No built-in word has a capital sigma, so none goes on after one. -/
theorem builtinNames_sensitive {words : List String} (h : ∀ word ∈ words, 'Σ' ∉ word.toList) :
    q.builtinNames .caseSensitive words
      = (q.builtinNames .caseInsensitive words).filter (caseSensitive.accepts q.typed) := by
  rw [builtinNames, builtinNames]
  split
  · rfl
  · refine filter_accepts fun word hword => Bool.eq_false_iff.2 fun hresumes => ?_
    exact h word hword (mem_of_resumesWord hresumes)

theorem filter_offer (kind : Kind) (names : List String) (p : String → Bool) :
    (q.offer kind names).filter (fun i => p i.name) = q.offer kind (names.filter p) := by
  rw [offer, offer, List.filter_map]
  rfl

/-- Those who ignore case are offered what the others are, if no name goes on with the last word. -/
theorem offered_sensitive (hq : q.unrestricted = false)
    (h : ∀ v ∈ m.vars ++ m.labels, resumesWord q.typed v.text = false) :
    q.offered m .caseSensitive
      = (q.offered m .caseInsensitive).filter (fun i => caseSensitive.accepts q.typed i.name) := by
  obtain ⟨hvars, hlabels⟩ := List.forall_mem_append.1 h
  rw [offered, offered, variableNames_sensitive hq hvars, labelNames_sensitive hq hlabels,
    builtinNames_sensitive (by decide +kernel), builtinNames_sensitive (by decide +kernel)]
  simp only [List.filter_append, filter_offer]

theorem mem_variableNames (hq : q.unrestricted = false) {mode : Matching} {vars : List Token}
    {name : String} : name ∈ q.variableNames mode vars ↔
      ∃ v ∈ vars, mode.accepts q.typed v.text = true ∧ name ∈ stepsBeyond q.typed.length v.text := by
  rw [variableNames, admits_eq hq, List.mem_eraseDups, List.mem_flatMap]
  constructor
  · rintro ⟨text, htext, hstep⟩
    obtain ⟨hvar, haccepts⟩ := List.mem_filter.1 htext
    obtain ⟨v, hv, rfl⟩ := List.mem_map.1 hvar
    exact ⟨v, hv, haccepts, hstep⟩
  · rintro ⟨v, hv, haccepts, hstep⟩
    exact ⟨v.text, List.mem_filter.2 ⟨List.mem_map_of_mem hv, haccepts⟩, hstep⟩

/-- A name that goes on with the last word is offered to those who do not ignore case, and to nobody
else. -/
theorem offered_resumesWord (hq : q.unrestricted = false) {v : Token} (hv : v ∈ m.vars ++ m.labels)
    (h : resumesWord q.typed v.text = true) :
    ∃ item ∈ q.offered m .caseSensitive, item ∉ q.offered m .caseInsensitive := by
  have hfront := isPrefix_of_resumesWord h
  have hsensitive : caseSensitive.accepts q.typed v.text = true :=
    accepts_sensitive.2 ⟨hfront, ne_of_resumesWord h⟩
  have hrefused {w : String} (hw : v.text.toList <+: w.toList) :
      ¬ caseInsensitive.accepts q.typed w = true := by
    rw [accepts_insensitive (hfront.trans hw), resumesWord_of_isPrefix h hw]
    exact Bool.false_ne_true
  rcases List.mem_append.1 hv with hv | hv
  · refine ⟨⟨.var, v.text, q.range⟩, mem_offered.2 ⟨rfl, ?_⟩, fun hmem => ?_⟩
    · exact (mem_variableNames hq).2 ⟨v, hv, hsensitive, mem_stepsBeyond_self hsensitive⟩
    · -- Whatever the name is a step of goes on with the last word as well.
      obtain ⟨w, -, haccepts, hstep⟩ := (mem_variableNames hq).1 (mem_offered.1 hmem).2
      exact hrefused (isPrefix_of_mem_steps (mem_stepsBeyond.1 hstep).1) haccepts
  · refine ⟨⟨.label, v.text, q.range⟩, mem_offered.2 ⟨rfl, ?_⟩, fun hmem => ?_⟩
    · rw [labelNames, admits_eq hq]
      exact List.mem_filter.2 ⟨List.mem_map_of_mem hv, hsensitive⟩
    · have hname := (mem_offered.1 hmem).2
      rw [labelNames, admits_eq hq] at hname
      exact hrefused (List.prefix_refl _) (List.mem_filter.1 hname).2

theorem offered_sensitive_iff (hq : q.unrestricted = false) :
    q.offered m .caseSensitive
        = (q.offered m .caseInsensitive).filter (fun i => caseSensitive.accepts q.typed i.name) ↔
      ∀ v ∈ m.vars ++ m.labels, resumesWord q.typed v.text = false := by
  constructor
  · intro h v hv
    refine Bool.eq_false_iff.2 fun hresumes => ?_
    obtain ⟨item, hitem, hmissing⟩ := offered_resumesWord hq hv hresumes
    rw [h] at hitem
    exact hmissing (List.mem_filter.1 hitem).1
  · exact offered_sensitive hq

/-- Before anything is typed, the mode does not matter. -/
theorem offered_of_unrestricted (m : Model) (range : Span) (mode mode' : Matching) :
    offered ⟨"", true, range⟩ m mode = offered ⟨"", true, range⟩ m mode' := rfl

end Prompt

end Completion

/-! ### Completion -/

namespace Model

open Completion Matching

variable {m : Model} {place : Position} {t : Token}

/-- After a blank or an opening parenthesis, both modes offer the same. -/
theorem complete_of_opening (hanchor : m.anchor place = .ok (some t))
    (hopening : t.kind.isOpening = true) :
    ∃ items, m.complete .fresh place .caseSensitive = .ok items ∧
      m.complete .fresh place .caseInsensitive = .ok items := by
  have hcomment : t.kind.isComment = false := by
    revert hopening
    cases t.kind <;> decide
  refine ⟨_, complete_of_prompt hanchor hcomment (promptAt_of_opening hopening) _, ?_⟩
  rw [complete_of_prompt hanchor hcomment (promptAt_of_opening hopening) _,
    Prompt.offered_of_unrestricted]

theorem complete_of_prompt_error {cause : Overflow} (hanchor : m.anchor place = .ok (some t))
    (hcomment : t.kind.isComment = false) (hprompt : promptAt t place = .error cause)
    (mode : Matching) : m.complete .fresh place mode = .error (.overflow cause) := by
  rw [complete, hanchor]
  show (if t.kind.isComment then _ else _) = _
  rw [hcomment, hprompt]
  rfl

/-- After any other anchor, both modes fail alike or both give a list.  Then the one list is the other
one, restricted to names that extend the typed text, in just two cases: in a comment, and if no name
goes on with the last word. -/
theorem complete_of_not_opening (hanchor : m.anchor place = .ok (some t))
    (hopening : t.kind.isOpening = false) :
    (∃ cs ci, m.complete .fresh place .caseSensitive = .ok cs ∧
        m.complete .fresh place .caseInsensitive = .ok ci ∧
        (cs = ci.filter (fun i => caseSensitive.accepts t.text i.name) ↔
          t.kind.isComment = true ∨ ∀ v ∈ m.vars ++ m.labels, resumesWord t.text v.text = false)) ∨
      ∃ cause, m.complete .fresh place .caseSensitive = .error (.overflow cause) ∧
        m.complete .fresh place .caseInsensitive = .error (.overflow cause) := by
  cases hcomment : t.kind.isComment with
  | true =>
      exact Or.inl ⟨[], [], complete_of_comment hanchor hcomment _,
        complete_of_comment hanchor hcomment _, iff_of_true rfl (Or.inl rfl)⟩
  | false =>
  cases hspan : t.span with
  | error cause =>
      have hprompt : promptAt t place = .error cause := by
        rw [promptAt_of_not_opening hopening, hspan]
        rfl
      exact Or.inr ⟨cause, complete_of_prompt_error hanchor hcomment hprompt _,
        complete_of_prompt_error hanchor hcomment hprompt _⟩
  | ok range =>
      have hprompt : promptAt t place = .ok ⟨t.text, false, range⟩ := by
        rw [promptAt_of_not_opening hopening, hspan]
        rfl
      refine Or.inl ⟨_, _, complete_of_prompt hanchor hcomment hprompt _,
        complete_of_prompt hanchor hcomment hprompt _, ?_⟩
      rw [or_iff_right Bool.false_ne_true]
      exact Prompt.offered_sensitive_iff rfl

end Model

open Matching

/-- **When the two modes agree.**  After a blank or an opening parenthesis both modes offer the same.
After any other anchor, what is offered to those who do not ignore case is what is offered to those who
do, restricted in order to the names that begin with the text of the anchor and differ from it, if and
only if the anchor is a comment or no variable or label goes on with a word that this text ends in a
capital sigma.  Either both modes give a list or, in a text whose places cannot be counted, both fail in
the same way. -/
theorem sensitive_restricts_iff (uri text : String) (place : Position) {t : Token}
    (hanchor : (Model.parse uri text).anchor place = .ok (some t)) :
    let m := Model.parse uri text
    let sensitive := m.complete .fresh place .caseSensitive
    let insensitive := m.complete .fresh place .caseInsensitive
    (t.kind.isOpening = true → ∃ items, sensitive = .ok items ∧ insensitive = .ok items) ∧
      (t.kind.isOpening = false →
        (∃ cs ci, sensitive = .ok cs ∧ insensitive = .ok ci ∧
          (cs = ci.filter (fun i => begins i.name t.text && i.name != t.text) ↔
            t.kind.isComment = true ∨
              ∀ v ∈ m.vars ++ m.labels, resumesWord t.text v.text = false)) ∨
        (Counter.placeLimit ≤ units text.toList ∧
          ∃ cause, sensitive = .error (.overflow cause) ∧
            insensitive = .error (.overflow cause))) := by
  intro m sensitive insensitive
  refine ⟨Model.complete_of_opening hanchor, fun hopening => ?_⟩
  rcases Model.complete_of_not_opening hanchor hopening with hlists | ⟨cause, hcs, hci⟩
  · exact Or.inl hlists
  · refine Or.inr ⟨Nat.not_lt.1 fun hunits => ?_, cause, hcs, hci⟩
    obtain ⟨items, hitems, -⟩ := Model.complete_name_text hunits place .caseInsensitive
    cases hitems.symm.trans hci

/-- A digit does not go on with a word, so a capital sigma in front of it stays final. -/
theorem sensitive_restricts_iff_digit :
    let m := Model.parse "a" "ΑΣ1 = 1\nΑΣ"
    let range : Span := ⟨⟨1, 0⟩, ⟨1, 2⟩⟩
    m.anchor ⟨1, 2⟩ = .ok (some ⟨.identifier, "ΑΣ", 1, 0, 8, 10⟩) ∧
      (∀ v ∈ m.vars ++ m.labels, resumesWord "ΑΣ" v.text = false) ∧
      m.complete .fresh ⟨1, 2⟩ .caseInsensitive = .ok [⟨.var, "ΑΣ1", range⟩] ∧
      m.complete .fresh ⟨1, 2⟩ .caseSensitive = .ok [⟨.var, "ΑΣ1", range⟩] := by
  intro m range
  have hanchor : m.anchor ⟨1, 2⟩ = .ok (some ⟨.identifier, "ΑΣ", 1, 0, 8, 10⟩) :=
    eq_ok_of_toOption (by decide +kernel)
  have hwords : ∀ v ∈ m.vars ++ m.labels, resumesWord "ΑΣ" v.text = false := by decide +kernel
  have hci : m.complete .fresh ⟨1, 2⟩ .caseInsensitive = .ok [⟨.var, "ΑΣ1", range⟩] :=
    eq_ok_of_toOption (by decide +kernel)
  refine ⟨hanchor, hwords, hci, ?_⟩
  rcases (sensitive_restricts_iff "a" "ΑΣ1 = 1\nΑΣ" ⟨1, 2⟩ hanchor).2 rfl with hlists | ⟨hlong, -⟩
  · obtain ⟨cs, ci, hcs, hci', hiff⟩ := hlists
    obtain rfl := Except.ok.inj (hci.symm.trans hci')
    rw [hcs, hiff.2 (Or.inr hwords)]
    exact congrArg Except.ok (by decide)
  · exact absurd hlong (by decide)

/-- Whoever ignores case is not offered everything that is offered to the others: in a name that goes on
with the typed word, the capital sigma at its end is not final any more. -/
theorem sensitive_offers_more :
    ¬ ∀ (uri text : String) (place : Position) (t : Token) (cs ci : List Completion.Item),
      (Model.parse uri text).anchor place = .ok (some t) → t.kind.isOpening = false →
      (Model.parse uri text).complete .fresh place .caseSensitive = .ok cs →
      (Model.parse uri text).complete .fresh place .caseInsensitive = .ok ci →
      cs = ci.filter (fun i => begins i.name t.text && i.name != t.text) := by
  intro hall
  have hanchor : (Model.parse "a" "ΑΣΒ = 1\nΑΣ").anchor ⟨1, 2⟩
      = .ok (some ⟨.identifier, "ΑΣ", 1, 0, 8, 10⟩) := eq_ok_of_toOption (by decide +kernel)
  have hcs : (Model.parse "a" "ΑΣΒ = 1\nΑΣ").complete .fresh ⟨1, 2⟩ .caseSensitive
      = .ok [⟨.var, "ΑΣΒ", ⟨⟨1, 0⟩, ⟨1, 2⟩⟩⟩] := eq_ok_of_toOption (by decide +kernel)
  have hci : (Model.parse "a" "ΑΣΒ = 1\nΑΣ").complete .fresh ⟨1, 2⟩ .caseInsensitive = .ok [] :=
    eq_ok_of_toOption (by decide +kernel)
  cases hall "a" _ ⟨1, 2⟩ _ _ _ hanchor rfl hcs hci

end RexxService
