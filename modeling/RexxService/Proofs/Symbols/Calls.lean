import RexxService.Proofs.Symbols.Occurrences

/-!
# Names under any calls

A collector need not be shown the tokens of a text.  It takes any token between any two neighbours, in any
order, with faults added in between, and keeps its promise about names all the same: each list is in strictly
increasing order of names, and holds the first token of every name and nothing else.

* **`Call`**, **`serveAll`** — what can be asked of a collector, and a run of calls;
* **`variableBy`**, **`labelBy`** — the token that a call qualifies as a variable or a label, told from the
  calls before it;
* **`Qualified`**, **`FirstQualified`** — the tokens that some call of a run qualifies, and those that are the
  first of their name;
* **`Registers`**, **`registers_concat`** — a table has registered what a run of calls qualifies, and what one
  more call does to it;
* **`Reached`**, **`reached_serve`**, **`reached_serveAll`** — the same for a collector with its two tables;
* **`lists_keep_first_names`** — the lists that a run of calls ends with.
-/

namespace RexxService

open RexxService.Text

namespace Collector

/-! ### Calls -/

inductive Call where
  | handle (previous : Option Token) (t : Token) (next : Option Token)
  | addFaults (faults : List Fault)
deriving DecidableEq, Repr

def serve (s : Collector) (state : Freshness) : Call → Except Cancelled Unit × Collector
  | .handle previous t next => s.handle state previous t next
  | .addFaults faults => (.ok (), s.addFaults faults)

/-- The outcome of calls in order, up to the first one that fails, and the collector after them. -/
def serveAll (s : Collector) (state : Freshness) : List Call → Except Cancelled Unit × Collector
  | [] => (.ok (), s)
  | call :: calls =>
      match s.serve state call with
      | (.error e, s) => (.error e, s)
      | (.ok (), s) => s.serveAll state calls

/-- The token that a call shows to the collector. -/
def Call.shown? : Call → Option Token
  | .handle _ t _ => some t
  | .addFaults _ => none

/-- The tokens that calls have shown to the collector, in order. -/
def shownBy (calls : List Call) : List Token := calls.filterMap Call.shown?

/-- The token that a call qualifies as a variable, given the calls before it: the token shown, if a variable
occurs there behind the tokens shown before. -/
def variableBy (before : List Call) : Call → Option Token
  | .handle _ t next => if VariableAt (shownBy before) t next then some t else none
  | .addFaults _ => none

/-- The token that a call qualifies as a label: the one before a colon. -/
def labelBy (_before : List Call) : Call → Option Token
  | .handle previous t _ => if t.kind = .colon then previous else none
  | .addFaults _ => none

/-! ### Names qualified by a run of calls -/

section Qualification

variable (qualify : List Call → Call → Option Token)

/-- Some call of a run qualifies the token. -/
def Qualified (calls : List Call) (t : Token) : Prop :=
  ∃ before call after, calls = before ++ call :: after ∧ qualify before call = some t

/-- Some call of a run qualifies the token, and no call before it qualifies a token of the same name. -/
def FirstQualified (calls : List Call) (t : Token) : Prop :=
  ∃ before call after, calls = before ++ call :: after ∧ qualify before call = some t ∧
    ∀ u, Qualified qualify before u → lowercase u.text ≠ lowercase t.text

/-- A list of tokens holds the names that a run of calls qualifies: in strictly increasing order, none of them
missing, each by the token that was qualified first, and nothing else. -/
structure KeepsFirst (calls : List Call) (ts : List Token) : Prop where
  increasing : ts.Pairwise fun t u => lowercase t.text < lowercase u.text
  represented : ∀ t, Qualified qualify calls t → ∃ u ∈ ts, lowercase u.text = lowercase t.text
  first : ∀ t, t ∈ ts ↔ FirstQualified qualify calls t

/-- A table has registered what a run of calls qualifies. -/
structure Registers (calls : List Call) (table : NameTable) : Prop where
  lacks : ∀ name, table.Lacks name ↔ ∀ u, Qualified qualify calls u → lowercase u.text ≠ name
  first : ∀ t, t ∈ table.tokens ↔ FirstQualified qualify calls t

variable {qualify} {calls : List Call} {table : NameTable}

theorem qualified_concat (calls : List Call) (last : Call) (t : Token) :
    Qualified qualify (calls ++ [last]) t ↔ Qualified qualify calls t ∨ qualify calls last = some t :=
  exists_split_concat

theorem firstQualified_concat (calls : List Call) (last : Call) (t : Token) :
    FirstQualified qualify (calls ++ [last]) t ↔ FirstQualified qualify calls t ∨
      qualify calls last = some t ∧ ∀ u, Qualified qualify calls u → lowercase u.text ≠ lowercase t.text :=
  exists_split_concat

theorem registers_empty : Registers qualify [] NameTable.empty where
  lacks := by simp [Qualified, NameTable.lacks_empty]
  first := by simp [FirstQualified, NameTable.empty]

/-- A table keeps up with one more call by registering what the call qualifies. -/
theorem registers_concat (h : Registers qualify calls table) (last : Call) :
    Registers qualify (calls ++ [last]) (table.registerAll (qualify calls last).toList) := by
  cases hlast : qualify calls last with
  | none =>
      refine ⟨fun name => ?_, fun t => ?_⟩
      · simp only [qualified_concat, hlast, reduceCtorEq, or_false]
        exact h.lacks name
      · simp only [firstQualified_concat, hlast, reduceCtorEq, false_and, or_false]
        exact h.first t
  | some v =>
      refine ⟨fun name => ?_, fun t => ?_⟩
      · show (table.register v).Lacks name ↔ _
        rw [NameTable.lacks_register_iff, h.lacks]
        simp only [qualified_concat, hlast, Option.some.injEq, or_imp, forall_and, forall_eq']
      · show t ∈ (table.register v).tokens ↔ _
        rw [NameTable.mem_tokens_register_iff, h.first, h.lacks, firstQualified_concat, hlast,
          Option.some.injEq, eq_comm (a := v)]
        refine or_congr_right (and_congr_right fun heq => ?_)
        rw [heq]

/-- What a table has registered, in the order of names. -/
theorem keepsFirst_sorted (h : Registers qualify calls table) : KeepsFirst qualify calls table.sorted where
  increasing := table.pairwise_sorted
  first := fun t => NameTable.mem_sorted_iff.trans (h.first t)
  represented := by
    intro t ht
    by_contra hnone
    have hlacks : table.Lacks (lowercase t.text) :=
      fun u hu heq => hnone ⟨u, NameTable.mem_sorted_iff.2 hu, heq⟩
    exact (h.lacks _).1 hlacks t ht rfl

end Qualification

/-! ### The collector -/

/-- The collector is where a run of calls from the beginning leads to: it remembers whether a template is open,
and has registered the variables and the labels. -/
structure Reached (calls : List Call) (s : Collector) : Prop where
  template : s.inTemplate = true ↔ InTemplate (shownBy calls)
  vars : Registers variableBy calls s.vars
  labels : Registers labelBy calls s.labels

variable {calls : List Call} {s : Collector}

theorem reached_empty : Reached [] empty where
  template := by simp [empty, shownBy, not_inTemplate_nil]
  vars := registers_empty
  labels := registers_empty

theorem reached_handle (h : Reached calls s) (previous : Option Token) (t : Token)
    (next : Option Token) :
    Reached (calls ++ [.handle previous t next]) (s.note previous t next) where
  template := by
    have hshown : shownBy (calls ++ [.handle previous t next]) = shownBy calls ++ [t] := by
      rw [shownBy, List.filterMap_append]
      rfl
    rw [note_inTemplate, templatePast_iff, h.template, hshown, inTemplate_concat_iff]
  vars := by
    have hvars : (s.note previous t next).vars
        = s.vars.registerAll (variableBy calls (.handle previous t next)).toList := by
      rw [note_vars h.template, variableBy]
      split <;> rfl
    rw [hvars]
    exact registers_concat h.vars _
  labels := by
    have hlabels : (s.note previous t next).labels
        = s.labels.registerAll (labelBy calls (.handle previous t next)).toList := by
      rw [note_labels, labelBy]
      split <;> rfl
    rw [hlabels]
    exact registers_concat h.labels _

theorem reached_addFaults (h : Reached calls s) (faults : List Fault) :
    Reached (calls ++ [.addFaults faults]) (s.addFaults faults) where
  template := by
    have hshown : shownBy (calls ++ [.addFaults faults]) = shownBy calls := by
      rw [shownBy, List.filterMap_append]
      exact List.append_nil _
    rw [hshown]
    exact h.template
  vars := registers_concat h.vars (.addFaults faults)
  labels := registers_concat h.labels (.addFaults faults)

/-- A collector of a current text serves every call. -/
theorem reached_serve (h : Reached calls s) (call : Call) :
    ∃ s', s.serve .fresh call = (.ok (), s') ∧ Reached (calls ++ [call]) s' := by
  cases call with
  | handle previous t next => exact ⟨_, handle_fresh s previous t next, reached_handle h previous t next⟩
  | addFaults faults => exact ⟨_, rfl, reached_addFaults h faults⟩

/-- A collector of a current text serves every run of calls. -/
theorem reached_serveAll (h : Reached calls s) (more : List Call) :
    ∃ s', s.serveAll .fresh more = (.ok (), s') ∧ Reached (calls ++ more) s' := by
  induction more generalizing calls s with
  | nil => exact ⟨s, rfl, by rw [List.append_nil]; exact h⟩
  | cons call more ih =>
      obtain ⟨s₁, hserve, hreached⟩ := reached_serve h call
      obtain ⟨s₂, hrest, hreached⟩ := ih hreached
      refine ⟨s₂, ?_, by rw [← List.append_cons] at hreached; exact hreached⟩
      rw [serveAll, hserve]
      exact hrest

end Collector

/-- **Lists of names are sorted, free of repetitions and keep the first spelling, whatever is fed to the
collector.**  As long as the text is current, the collector serves all calls and hands over what it has found.
Its variables, and its labels, stand in strictly increasing order of their lowercase forms; every token that a
call has qualified as a variable (a label) is there in some spelling; and the tokens that are there are exactly
those that were qualified before any other token of the same name. -/
theorem lists_keep_first_names (calls : List Collector.Call) :
    ∃ s symbols, Collector.empty.serveAll .fresh calls = (.ok (), s) ∧ s.finish .fresh = .ok symbols ∧
      Collector.KeepsFirst Collector.variableBy calls symbols.vars ∧
      Collector.KeepsFirst Collector.labelBy calls symbols.labels := by
  obtain ⟨s, hserve, hreached⟩ := Collector.reached_serveAll Collector.reached_empty calls
  rw [List.nil_append] at hreached
  refine ⟨s, s.symbols, hserve, Collector.finish_fresh s, ?_, ?_⟩
  · exact Collector.keepsFirst_sorted hreached.vars
  · exact Collector.keepsFirst_sorted hreached.labels

end RexxService
