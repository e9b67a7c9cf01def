import RexxService.Completion

/-!
# The items on offer

While a model is fresh nothing is given up, so the items for a prompt are a plain list.  Each of them
replaces the same part of the text, and its name matches what has been typed.

* **`offered`**, **`items_fresh_eq`** — the items for a prompt;
* **`Matched`**, **`matched_of_mem_offered`** — how the name of an item matches typed text;
* **`complete_of_prompt`**, **`exists_prompt`** — completion is a search for the anchor, and then the
  items for its prompt.
-/

namespace RexxService

namespace Completion

namespace Prompt

def builtinNames (q : Prompt) (mode : Matching) (words : List String) : List String :=
  if q.typed.isEmpty then [] else words.filter (mode.accepts q.typed)

def offered (q : Prompt) (m : Model) (mode : Matching) : List Item :=
  q.offer .var (q.variableNames mode m.vars)
    ++ q.offer .label (q.labelNames mode m.labels)
    ++ q.offer .function (q.builtinNames mode Vocabulary.functions)
    ++ q.offer .keyword (q.builtinNames mode Vocabulary.keywords)

theorem builtins_fresh (q : Prompt) (mode : Matching) (words : List String) :
    q.builtins .fresh mode words = .ok (q.builtinNames mode words) := by
  rw [builtins, builtinNames, Freshness.visit_fresh]
  split
  · rfl
  · rfl

theorem items_fresh_eq (q : Prompt) (m : Model) (mode : Matching) :
    q.items m .fresh mode = .ok (q.offered m mode) := by
  rw [items, Freshness.visit_fresh, Freshness.visit_fresh, builtins_fresh, builtins_fresh]
  rfl

theorem mem_offer {q : Prompt} {kind : Kind} {names : List String} {item : Item} :
    item ∈ q.offer kind names ↔ item.kind = kind ∧ item.range = q.range ∧ item.name ∈ names := by
  rw [offer, List.mem_map]
  constructor
  · rintro ⟨name, hname, rfl⟩
    exact ⟨rfl, rfl, hname⟩
  · rintro ⟨rfl, hrange, hname⟩
    exact ⟨item.name, hname, by rw [← hrange]⟩

/-- An item is offered as one of four kinds, under a name that was found for that kind. -/
theorem mem_offered {q : Prompt} {m : Model} {mode : Matching} {item : Item} :
    item ∈ q.offered m mode ↔ item.range = q.range ∧
      match item.kind with
      | .var => item.name ∈ q.variableNames mode m.vars
      | .label => item.name ∈ q.labelNames mode m.labels
      | .function => item.name ∈ q.builtinNames mode Vocabulary.functions
      | .keyword => item.name ∈ q.builtinNames mode Vocabulary.keywords := by
  simp only [offered, List.mem_append, mem_offer]
  cases item.kind <;> simp

end Prompt

/-- The name of an item matches a text that was typed: the name itself does or, for a variable, the
name is a step of a variable that does. -/
def Matched (m : Model) (mode : Matching) (typed : String) (item : Item) : Prop :=
  match item.kind with
  | .var => ∃ v ∈ m.vars, mode.accepts typed v.text = true ∧
      item.name ∈ stepsBeyond typed.length v.text
  | .label | .function | .keyword => mode.accepts typed item.name = true

/-- Unless every name is on offer, the names match what has been typed. -/
theorem matched_of_mem_offered {q : Prompt} {m : Model} {mode : Matching} {item : Item}
    (h : item ∈ q.offered m mode) (hq : q.unrestricted = false) : Matched m mode q.typed item := by
  have hadmits {name : String} (h : q.admits mode name = true) : mode.accepts q.typed name = true := by
    rwa [Prompt.admits, hq, Bool.false_or] at h
  have hbuiltin {words : List String} (h : item.name ∈ q.builtinNames mode words) :
      mode.accepts q.typed item.name = true := by
    rw [Prompt.builtinNames] at h
    split at h
    · cases h
    · exact (List.mem_filter.1 h).2
  obtain ⟨-, hname⟩ := Prompt.mem_offered.1 h
  rw [Matched]
  split at hname
  · rw [Prompt.variableNames, List.mem_eraseDups] at hname
    obtain ⟨name, hname, hstep⟩ := List.mem_flatMap.1 hname
    obtain ⟨hvar, hadmitted⟩ := List.mem_filter.1 hname
    obtain ⟨v, hv, rfl⟩ := List.mem_map.1 hvar
    exact ⟨v, hv, hadmits hadmitted, hstep⟩
  · exact hadmits (List.mem_filter.1 hname).2
  · exact hbuiltin hname
  · exact hbuiltin hname

/-! ### Completion -/

/-- The prompt after a token that is not empty space has the text of the token. -/
theorem promptAt_of_not_opening {t : Token} {p : Position} (h : t.kind.isOpening = false) :
    promptAt t p = t.span.map fun range => ⟨t.text, false, range⟩ := by
  rw [promptAt, h]
  rfl

theorem promptAt_of_opening {t : Token} {p : Position} (h : t.kind.isOpening = true) :
    promptAt t p = .ok ⟨"", true, Span.single p⟩ := by
  rw [promptAt, h]
  rfl

end Completion

namespace Model

open Completion

theorem complete_of_none {m : Model} {p : Position} (h : m.anchor p = .ok none) (mode : Matching) :
    m.complete .fresh p mode = .ok [] := by
  rw [complete, h]
  rfl

theorem complete_of_comment {m : Model} {p : Position} {t : Token} (h : m.anchor p = .ok (some t))
    (ht : t.kind.isComment = true) (mode : Matching) : m.complete .fresh p mode = .ok [] := by
  rw [complete, h]
  show (if t.kind.isComment then _ else _) = _
  rw [if_pos ht]
  rfl

theorem complete_of_prompt {m : Model} {p : Position} {t : Token} {q : Prompt}
    (h : m.anchor p = .ok (some t)) (ht : t.kind.isComment = false) (hq : promptAt t p = .ok q)
    (mode : Matching) : m.complete .fresh p mode = .ok (q.offered m mode) := by
  rw [complete, h]
  show (if t.kind.isComment then _ else _) = _
  rw [ht, hq]
  show Failure.ofVisit (q.items m .fresh mode) = _
  rw [Prompt.items_fresh_eq]
  rfl

/-- Whatever is on offer comes from the prompt after an anchor that is not a comment. -/
theorem exists_prompt {m : Model} {p : Position} {mode : Matching} {items : List Item} {item : Item}
    (h : m.complete .fresh p mode = .ok items) (hitem : item ∈ items) :
    ∃ t q, m.anchor p = .ok (some t) ∧ t.kind.isComment = false ∧ promptAt t p = .ok q ∧
      item ∈ q.offered m mode := by
  cases ha : m.anchor p with
  | error e =>
      rw [complete, ha] at h
      cases h
  | ok found =>
  cases found with
  | none =>
      rw [complete_of_none ha] at h
      cases h
      cases hitem
  | some t =>
  cases ht : t.kind.isComment with
  | true =>
      rw [complete_of_comment ha ht] at h
      cases h
      cases hitem
  | false =>
  cases hq : promptAt t p with
  | error e =>
      rw [complete, ha] at h
      replace h : (if t.kind.isComment then _ else Failure.ofCount (promptAt t p) >>= _) = _ := h
      rw [ht, hq] at h
      cases h
  | ok q =>
      rw [complete_of_prompt ha ht hq] at h
      cases h
      exact ⟨t, q, rfl, ht, hq, hitem⟩

end Model

end RexxService
