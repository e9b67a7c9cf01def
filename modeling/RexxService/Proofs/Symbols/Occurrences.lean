import Mathlib.Data.List.Induction
import RexxService.Proofs.Symbols.FirstSpelling
import RexxService.Proofs.Symbols.Sweep
import RexxService.Proofs.Text.Lowercase

/-!
# Where names occur

The collector decides at each token, from what it remembers, whether a name occurs there.  Whether it does
can also be said of the list of tokens as a whole, by what stands before a token and by the token that
comes next.

* **`InTemplate`**, **`inTemplate_iff`** — the template of a `parse` instruction is open behind some
  tokens, and this is what the collector remembers;
* **`VariableAt`**, **`LabelAt`** — the places where a variable or a label occurs;
* **`occurrences`** — the tokens at such places, in order, with **`sweep_vars`** and **`sweep_labels`**:
  the collector registers these and nothing else;
* **`FirstOf`**, **`mem_registerAll_occurrences`** — a token is in the table in the end exactly when it is
  the first occurrence of its name;
* **`vars_sweep_sublist`**, **`labels_sweep_sublist`** — what is found stays where it is when more tokens
  follow.
-/

namespace RexxService

open RexxService.Text

/-! ### Occurrences in a list -/

section Places

variable (P : List Token → Token → Option Token → Prop)
  [∀ front t next, Decidable (P front t next)]

/-- The tokens of a list at whose places a condition holds, given the tokens in front of the list.  The
condition is on the tokens before a place, the token at it, and the token next to it. -/
def occurrences (front : List Token) : List Token → List Token
  | [] => []
  | t :: ts =>
      if P front t ts.head? then t :: occurrences (front ++ [t]) ts
      else occurrences (front ++ [t]) ts

/-- The condition holds where the token stands in the list, and at no earlier place does it hold of a
token of the same name. -/
def FirstOf (ts : List Token) (t : Token) : Prop :=
  ∃ front back, ts = front ++ t :: back ∧ P front t back.head? ∧
    ∀ earlier u later, front = earlier ++ u :: later → P earlier u (later ++ t :: back).head? →
      lowercase u.text ≠ lowercase t.text

/-- Behind the tokens `past`, the condition holds where the token stands in the list, and all tokens of
which it holds earlier in the list are of the kind `Q`. -/
def FirstFrom (Q : Token → Prop) (past ts : List Token) (t : Token) : Prop :=
  ∃ front back, ts = front ++ t :: back ∧ P (past ++ front) t back.head? ∧
    ∀ earlier u later, front = earlier ++ u :: later →
      P (past ++ earlier) u (later ++ t :: back).head? → Q u

variable {P}

omit [∀ front t next, Decidable (P front t next)] in
theorem FirstOf.mem {ts : List Token} {t : Token} (h : FirstOf P ts t) : t ∈ ts := by
  obtain ⟨front, back, rfl, -⟩ := h
  exact List.mem_append_right front List.mem_cons_self

theorem occurrences_of_holds {front : List Token} {t : Token} {ts : List Token}
    (h : P front t ts.head?) :
    occurrences P front (t :: ts) = t :: occurrences P (front ++ [t]) ts := by
  rw [occurrences, if_pos h]

theorem occurrences_of_not {front : List Token} {t : Token} {ts : List Token}
    (h : ¬ P front t ts.head?) :
    occurrences P front (t :: ts) = occurrences P (front ++ [t]) ts := by
  rw [occurrences, if_neg h]

omit [∀ front t next, Decidable (P front t next)] in
/-- What is true of all earlier places where the condition holds, behind one more token. -/
theorem forall_earlier_cons {Q : Token → Prop} {past front back : List Token} {w : Token} :
    (∀ earlier u later, w :: front = earlier ++ u :: later →
        P (past ++ earlier) u (later ++ back).head? → Q u) ↔
      (P past w (front ++ back).head? → Q w) ∧
        ∀ earlier u later, front = earlier ++ u :: later →
          P (past ++ [w] ++ earlier) u (later ++ back).head? → Q u := by
  constructor
  · intro h
    constructor
    · intro hw
      exact h [] w front rfl (by simpa using hw)
    · intro earlier u later heq hu
      exact h (w :: earlier) u later (by simp [heq]) (by simpa using hu)
  · intro ⟨hw, h⟩ earlier u later hsplit hu
    cases earlier with
    | nil =>
        obtain ⟨rfl, rfl⟩ := List.cons.inj hsplit
        exact hw (by simpa using hu)
    | cons e earlier =>
        obtain ⟨rfl, heq⟩ := List.cons.inj hsplit
        exact h earlier u later heq (by simpa using hu)

omit [∀ front t next, Decidable (P front t next)] in
theorem firstFrom_cons_iff {Q : Token → Prop} {past ts : List Token} {t w : Token} :
    FirstFrom P Q past (w :: ts) t ↔
      (w = t ∧ P past w ts.head?) ∨ (P past w ts.head? → Q w) ∧ FirstFrom P Q (past ++ [w]) ts t := by
  rw [FirstFrom, exists_split_cons]
  simp only [forall_earlier_cons]
  constructor
  · intro h
    rcases h with ⟨rfl, ht, -⟩ | ⟨front, back, rfl, ht, hw, hfirst⟩
    · exact Or.inl ⟨rfl, by simpa using ht⟩
    · exact Or.inr ⟨hw, front, back, rfl, by simpa using ht, hfirst⟩
  · intro h
    rcases h with ⟨rfl, ht⟩ | ⟨hw, front, back, rfl, ht, hfirst⟩
    · exact Or.inl ⟨rfl, by simpa using ht, by simp⟩
    · exact Or.inr ⟨front, back, rfl, by simpa using ht, hw, hfirst⟩

/-- What stands before an occurrence in the list of occurrences has occurred before it. -/
theorem exists_occurrences_split (Q : Token → Prop) (past ts : List Token) (t : Token) :
    (∃ front back, occurrences P past ts = front ++ t :: back ∧ ∀ u ∈ front, Q u) ↔
      FirstFrom P Q past ts t := by
  -- The induction is on the list; what has been passed already is carried along in `past`.
  induction ts generalizing past with
  | nil => simp [occurrences, FirstFrom]
  | cons w ts ih =>
      rw [firstFrom_cons_iff, ← ih (past ++ [w])]
      by_cases hw : P past w ts.head?
      · rw [occurrences_of_holds hw, NameTable.exists_behind_cons]
        simp only [hw, true_imp_iff, and_true]
      · rw [occurrences_of_not hw]
        simp only [hw, false_imp_iff, true_and, and_false, false_or]

/-- A table that registers the occurrences of names holds the first occurrence of each. -/
theorem mem_registerAll_occurrences (ts : List Token) (t : Token) :
    t ∈ (NameTable.empty.registerAll (occurrences P [] ts)).sorted ↔ FirstOf P ts t := by
  have hempty : t ∉ NameTable.empty.tokens := by simp [NameTable.empty]
  rw [NameTable.mem_sorted_iff, NameTable.mem_tokens_registerAll, or_iff_right hempty,
    and_iff_right (NameTable.lacks_empty _), exists_occurrences_split]
  simp only [FirstFrom, FirstOf, List.nil_append]

/-- If a token that comes next can only help, longer lists have all occurrences of shorter ones, in the
same order and before any others. -/
theorem occurrences_isPrefix (hP : ∀ front t next, P front t none → P front t next)
    (past ts us : List Token) : occurrences P past ts <+: occurrences P past (ts ++ us) := by
  induction ts generalizing past with
  | nil => exact List.nil_prefix
  | cons t ts ih =>
      have hrest := ih (past ++ [t])
      rw [List.cons_append]
      by_cases ht : P past t ts.head?
      · have ht' : P past t (ts ++ us).head? := by
          cases ts with
          | nil => exact hP past t _ ht
          | cons v ts => exact ht
        rw [occurrences_of_holds ht, occurrences_of_holds ht']
        exact List.cons_prefix_cons.2 ⟨rfl, hrest⟩
      · rw [occurrences_of_not ht]
        cases ts with
        | nil => exact List.nil_prefix
        | cons v ts =>
            have ht' : ¬ P past t (v :: ts ++ us).head? := ht
            rw [occurrences_of_not ht']
            exact hrest

end Places

/-! ### Templates -/

/-- Whether a template goes on behind a token. -/
def Token.KeepsTemplate (t : Token) : Prop :=
  t.kind = .keyword → t.isKeyword "parse" = true ∨ Collector.isTemplateWord t.text = true

/-- The template of a `parse` instruction is open behind some tokens: one of them is the keyword `parse`,
and no keyword behind that one ends the template. -/
def InTemplate (front : List Token) : Prop :=
  ∃ before p between, front = before ++ p :: between ∧ p.isKeyword "parse" = true ∧
    ∀ u ∈ between, u.KeepsTemplate

theorem not_inTemplate_nil : ¬ InTemplate [] := by
  rintro ⟨before, p, between, hnil, -⟩
  simp at hnil

/-- What one more token does to a template. -/
theorem inTemplate_concat_iff (front : List Token) (t : Token) :
    InTemplate (front ++ [t]) ↔ t.isKeyword "parse" = true ∨ InTemplate front ∧ t.KeepsTemplate := by
  rw [InTemplate, exists_split_concat]
  constructor
  · rintro (⟨before, p, between, rfl, hp, hbetween⟩ | ⟨ht, -⟩)
    · rw [List.forall_mem_append] at hbetween
      exact Or.inr ⟨⟨before, p, between, rfl, hp, hbetween.1⟩, hbetween.2 t (by simp)⟩
    · exact Or.inl ht
  · rintro (ht | ⟨⟨before, p, between, rfl, hp, hbetween⟩, ht⟩)
    · exact Or.inr ⟨ht, by simp⟩
    · refine Or.inl ⟨before, p, between, rfl, hp, ?_⟩
      rw [List.forall_mem_append]
      exact ⟨hbetween, by simpa using ht⟩

namespace Collector

theorem isTemplateWord_asciiLower (word : String) :
    isTemplateWord (asciiLower word) = isTemplateWord word := by
  have h : asciiLower (asciiLower word) = asciiLower word := by
    simp only [asciiLower, String.toList_ofList, List.map_map, Function.comp_def, toLower_toLower]
  rw [isTemplateWord, isTemplateWord, h]

/-- Whether a template is open after a token. -/
def templatePast (inTemplate : Bool) (t : Token) : Bool :=
  if t.kind = .keyword then templateAfter inTemplate (asciiLower t.text) else inTemplate

theorem templatePast_iff (inTemplate : Bool) (t : Token) :
    templatePast inTemplate t = true ↔
      t.isKeyword "parse" = true ∨ inTemplate = true ∧ t.KeepsTemplate := by
  by_cases h : t.kind = .keyword
  · simp only [templatePast, h, if_true, templateAfter, isTemplateWord_asciiLower, Token.isKeyword,
      Token.KeepsTemplate, Bool.or_eq_true, Bool.and_eq_true, beq_self_eq_true, true_and, true_imp_iff]
    grind
  · simp [templatePast, h, Token.isKeyword, Token.KeepsTemplate]

theorem note_inTemplate (s : Collector) (previous : Option Token) (t : Token) (next : Option Token) :
    (s.note previous t next).inTemplate = templatePast s.inTemplate t := by
  fun_cases note s previous t next with
  | case1 h =>
      rw [onKeyword_eq h, templatePast, if_pos h]
      rfl
  | case2 h =>
      rw [templatePast, if_neg (by simp [h]), onIdentifier]
      split <;> rfl
  | case3 h =>
      rw [templatePast, if_neg (by simp [h]), onColon.eq_def]
      split <;> rfl
  | case4 h => rw [templatePast, if_neg h]

end Collector

/-- A template is open behind some tokens exactly when the collector, shown these tokens, says so. -/
theorem inTemplate_iff (front : List Token) :
    front.foldl Collector.templatePast false = true ↔ InTemplate front := by
  induction front using List.reverseRecOn with
  | nil => simp [not_inTemplate_nil]
  | append_singleton front t ih =>
      rw [List.foldl_append, List.foldl_cons, List.foldl_nil, Collector.templatePast_iff,
        inTemplate_concat_iff, ih]

instance (front : List Token) : Decidable (InTemplate front) :=
  decidable_of_iff _ (inTemplate_iff front)

/-! ### Variables and labels -/

/-- A variable occurs at a token: an identifier before an equal sign, or one in a template that is not a
word of the `parse` instruction itself. -/
def VariableAt (front : List Token) (t : Token) (next : Option Token) : Prop :=
  t.kind = .identifier ∧
    ((∃ u ∈ next, u.kind = .equal) ∨
      Collector.isTemplateWord t.text = false ∧ InTemplate front)

/-- A label occurs at a token: whatever stands before a colon. -/
def LabelAt (_front : List Token) (_t : Token) (next : Option Token) : Prop :=
  ∃ u ∈ next, u.kind = .colon

theorem any_kind_iff (kind : Token.Kind) (next : Option Token) :
    next.any (fun u => u.kind == kind) = true ↔ ∃ u ∈ next, u.kind = kind := by
  simp [Option.any_eq_true]

instance (kind : Token.Kind) (next : Option Token) : Decidable (∃ u ∈ next, u.kind = kind) :=
  decidable_of_iff _ (any_kind_iff kind next)

instance (front : List Token) (t : Token) (next : Option Token) : Decidable (VariableAt front t next) :=
  inferInstanceAs (Decidable (_ ∧ ((∃ u ∈ next, _) ∨ _ ∧ InTemplate front)))

instance (front : List Token) (t : Token) (next : Option Token) : Decidable (LabelAt front t next) :=
  inferInstanceAs (Decidable (∃ u ∈ next, u.kind = .colon))

theorem VariableAt.of_none {front : List Token} {t : Token} (next : Option Token)
    (h : VariableAt front t none) : VariableAt front t next := by
  obtain ⟨hkind, hnext | htemplate⟩ := h
  · simp at hnext
  · exact ⟨hkind, Or.inr htemplate⟩

namespace Collector

variable {s : Collector} {past : List Token}

/-- The collector takes an identifier for a variable where one occurs. -/
theorem isVariable_iff (h : s.inTemplate = true ↔ InTemplate past) {t : Token}
    (ht : t.kind = .identifier) (next : Option Token) :
    s.isVariable t next = true ↔ VariableAt past t next := by
  simp only [isVariable, VariableAt, ht, true_and, Bool.or_eq_true, any_kind_iff, Bool.and_eq_true,
    Bool.not_eq_true', h, and_comm]

theorem note_vars (h : s.inTemplate = true ↔ InTemplate past) (previous : Option Token) (t : Token)
    (next : Option Token) :
    (s.note previous t next).vars = if VariableAt past t next then s.vars.register t else s.vars := by
  by_cases hidentifier : t.kind = .identifier
  · rw [note_identifier hidentifier, onIdentifier]
    simp only [isVariable_iff h hidentifier]
    split <;> rfl
  · rw [if_neg fun hvariable => hidentifier hvariable.1]
    by_cases hkeyword : t.kind = .keyword
    · rw [note_keyword hkeyword, onKeyword_eq hkeyword]
      rfl
    by_cases hcolon : t.kind = .colon
    · rw [note_colon hcolon, onColon.eq_def]
      split <;> rfl
    · rw [note_other hkeyword hidentifier hcolon]

theorem note_labels (s : Collector) (previous : Option Token) (t : Token) (next : Option Token) :
    (s.note previous t next).labels
      = if t.kind = .colon then s.labels.registerAll previous.toList else s.labels := by
  by_cases hcolon : t.kind = .colon
  · rw [note_colon hcolon, if_pos hcolon]
    cases previous <;> rfl
  · rw [if_neg hcolon]
    by_cases hkeyword : t.kind = .keyword
    · rw [note_keyword hkeyword, onKeyword_eq hkeyword]
      rfl
    by_cases hidentifier : t.kind = .identifier
    · rw [note_identifier hidentifier, onIdentifier]
      split <;> rfl
    · rw [note_other hkeyword hidentifier hcolon]

/-- The collector registers the variables that occur, in order. -/
theorem sweep_vars (h : s.inTemplate = true ↔ InTemplate past) (previous : Option Token)
    (ts : List Token) :
    (s.sweep previous ts).vars = s.vars.registerAll (occurrences VariableAt past ts) := by
  induction ts generalizing s past previous with
  | nil => rfl
  | cons t ts ih =>
      have hnote : (s.note previous t ts.head?).inTemplate = true ↔ InTemplate (past ++ [t]) := by
        rw [note_inTemplate, templatePast_iff, h, inTemplate_concat_iff]
      rw [sweep, ih hnote, note_vars h, occurrences]
      split <;> rfl

/-- The collector registers the labels that occur, in order.  Each of them is registered when the colon
behind it is seen, so the token seen last stands in front of those to come. -/
theorem sweep_labels (s : Collector) (past : List Token) (previous : Option Token) (ts : List Token) :
    (s.sweep previous ts).labels
      = s.labels.registerAll (occurrences LabelAt past (previous.toList ++ ts)) := by
  induction ts generalizing s past previous with
  | nil => cases previous <;> simp [sweep, occurrences, LabelAt]
  | cons t ts ih =>
      cases previous with
      | none =>
          rw [sweep, ih _ past, note_labels]
          simp
      | some v =>
          rw [sweep, ih _ (past ++ [v]), note_labels]
          simp only [Option.toList_some, List.singleton_append, occurrences, LabelAt]
          by_cases hcolon : t.kind = .colon
          · simp [hcolon]
          · simp [hcolon]

theorem vars_sweep_empty (ts : List Token) :
    (empty.sweep none ts).vars = NameTable.empty.registerAll (occurrences VariableAt [] ts) := by
  have hempty : empty.inTemplate = true ↔ InTemplate [] := by simp [empty, not_inTemplate_nil]
  exact sweep_vars hempty none ts

theorem labels_sweep_empty (ts : List Token) :
    (empty.sweep none ts).labels = NameTable.empty.registerAll (occurrences LabelAt [] ts) :=
  sweep_labels empty [] none ts

/-- The variables that are found are the first occurrences of their names. -/
theorem mem_vars_sweep_iff (ts : List Token) (t : Token) :
    t ∈ (empty.sweep none ts).vars.sorted ↔ FirstOf VariableAt ts t := by
  rw [vars_sweep_empty]
  exact mem_registerAll_occurrences ts t

/-- The labels that are found are the first occurrences of their names. -/
theorem mem_labels_sweep_iff (ts : List Token) (t : Token) :
    t ∈ (empty.sweep none ts).labels.sorted ↔ FirstOf LabelAt ts t := by
  rw [labels_sweep_empty]
  exact mem_registerAll_occurrences ts t

/-- More tokens drop, rename and move no variable. -/
theorem vars_sweep_sublist (ts us : List Token) :
    (empty.sweep none ts).vars.sorted.Sublist (empty.sweep none (ts ++ us)).vars.sorted := by
  rw [vars_sweep_empty, vars_sweep_empty]
  apply NameTable.registerAll_sublist
  exact occurrences_isPrefix (fun _ _ next h => h.of_none next) [] ts us

/-- More tokens drop, rename and move no label. -/
theorem labels_sweep_sublist (ts us : List Token) :
    (empty.sweep none ts).labels.sorted.Sublist (empty.sweep none (ts ++ us)).labels.sorted := by
  rw [labels_sweep_empty, labels_sweep_empty]
  apply NameTable.registerAll_sublist
  exact occurrences_isPrefix (fun _ _ _ h => by simp [LabelAt] at h) [] ts us

end Collector

end RexxService
