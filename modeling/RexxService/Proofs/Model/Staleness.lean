import RexxService.Proofs.Completion.WordEnd

/-!
# Work on a stale text

Every loop of the analysis looks at the freshness of its text before each step.  So work on a stale text is
given up as soon as some loop has a step to make, and work without such a step ends as it would have ended on
a fresh text.  There is nothing in between: no part of a list is ever handed out, and no collector is left
half changed.

* **`AllOrNothing`** — work is given up under exactly one condition, and ends like fresh work otherwise;
* **`Token.Kind.isNoted`** — the kinds of the tokens at which a collector looks at the freshness, with
  **`handle_stale`** and **`feed_stale`**;
* **`finish_stale`**, **`parseWhile_stale`** — the end of a collection, and a whole parse;
* **`complete_cases`** — what completion does before it looks at the freshness for the first time;
* **`stale_work_all_or_nothing`** — the laws together.
-/

namespace RexxService

open RexxService.Text RexxService.Completion

/-- Work that is given up with a failure exactly under a condition, and that otherwise ends with the very
result with which the same work ends when it is fresh. -/
structure AllOrNothing {ε α : Type} (failure : ε) (condition : Prop) (stale fresh : Except ε α) : Prop where
  givenUp_iff : stale = .error failure ↔ condition
  whole : ¬ condition → ∃ a, stale = .ok a ∧ fresh = .ok a

namespace AllOrNothing

variable {ε α : Type} {failure : ε} {condition : Prop} {stale fresh : Except ε α} {a : α}

theorem of_holds (h : condition) (hstale : stale = .error failure) :
    AllOrNothing failure condition stale fresh :=
  ⟨iff_of_true hstale h, fun hnot => absurd h hnot⟩

theorem of_not (h : ¬ condition) (hstale : stale = .ok a) (hfresh : fresh = .ok a) :
    AllOrNothing failure condition stale fresh := by
  refine ⟨iff_of_false ?_ h, fun _ => ⟨a, hstale, hfresh⟩⟩
  rw [hstale]
  exact fun h => nomatch h

end AllOrNothing

/-! ### Visiting a list -/

namespace Freshness

variable {α : Type}

theorem visit_nil (state : Freshness) : state.visit ([] : List α) = .ok [] := rfl

/-- Stale work does not get past the first element. -/
theorem visit_stale {xs : List α} (h : xs ≠ []) : stale.visit xs = .error .outOfDate := by
  cases xs with
  | nil => exact absurd rfl h
  | cons x xs =>
      rw [visit, List.mapM_cons]
      rfl

end Freshness

/-! ### Collecting symbols -/

/-- Whether a collector takes note of the tokens of a kind. -/
def Token.Kind.isNoted : Token.Kind → Bool
  | keyword | identifier | colon => true
  | _ => false

theorem Token.Kind.isNoted_iff {kind : Token.Kind} :
    kind.isNoted = true ↔ kind = .keyword ∨ kind = .identifier ∨ kind = .colon := by
  cases kind <;> decide

namespace Collector

variable {t : Token}

/-- A token that is noted is given up with a stale text before anything has been noted. -/
theorem handle_stale (h : t.kind.isNoted = true) (s : Collector) (previous next : Option Token) :
    s.handle .stale previous t next = (.error .outOfDate, s) := by
  rw [handle]
  rcases Token.Kind.isNoted_iff.1 h with h | h | h
  · rw [h]
    rfl
  · rw [h]
    rfl
  · rw [h]
    rfl

/-- A token that is not noted changes nothing, whether the text is fresh or not. -/
theorem handle_of_not_noted (h : t.kind.isNoted = false) (s : Collector) (state : Freshness)
    (previous next : Option Token) : s.handle state previous t next = (.ok (), s) := by
  rw [handle]
  split
  · rename_i hkind
    rw [hkind] at h
    cases h
  · rename_i hkind
    rw [hkind] at h
    cases h
  · rename_i hkind
    rw [hkind] at h
    cases h
  · rfl

theorem feed_of_not_noted {ts : List Token} (h : ∀ t ∈ ts, t.kind.isNoted = false) (s : Collector)
    (state : Freshness) (previous : Option Token) : s.feed state previous ts = (.ok (), s) := by
  induction ts generalizing previous with
  | nil => rfl
  | cons t ts ih =>
      rw [feed, handle_of_not_noted (h t List.mem_cons_self)]
      exact ih (fun u hu => h u (List.mem_cons_of_mem t hu)) (some t)

/-- The tokens of a list in front of the first one that is noted. -/
def unnoted (ts : List Token) : List Token := ts.takeWhile fun t => !t.kind.isNoted

theorem isNoted_of_mem_unnoted {ts : List Token} (h : t ∈ unnoted ts) : t.kind.isNoted = false := by
  have hnot := List.mem_takeWhile_imp h
  simpa using hnot

theorem unnoted_cons_of_noted (h : t.kind.isNoted = true) (ts : List Token) : unnoted (t :: ts) = [] := by
  rw [unnoted, List.takeWhile_cons, h]
  rfl

theorem unnoted_cons_of_not (h : t.kind.isNoted = false) (ts : List Token) :
    unnoted (t :: ts) = t :: unnoted ts := by
  rw [unnoted, List.takeWhile_cons, h]
  rfl

/-- Feeding stale tokens stops at the first one that is noted, with the collector as the tokens in front of
it have left it. -/
theorem feed_stale (s : Collector) (previous : Option Token) (ts : List Token) :
    s.feed .stale previous ts = (if unnoted ts = ts then .ok () else .error .outOfDate, s) := by
  induction ts generalizing previous with
  | nil => rfl
  | cons t ts ih =>
      cases h : t.kind.isNoted with
      | true =>
          rw [feed, handle_stale h, unnoted_cons_of_noted h, if_neg (List.cons_ne_nil t ts).symm]
      | false =>
          rw [feed, handle_of_not_noted h]
          show s.feed .stale (some t) ts = _
          simp only [ih, unnoted_cons_of_not h, List.cons.injEq, true_and]

end Collector

theorem NameTable.collect_of_empty {table : NameTable} (h : table.tokens = #[]) (state : Freshness) :
    table.collect state = .ok [] := by
  rw [collect, h, Freshness.visit_nil]
  rfl

theorem NameTable.collect_stale {table : NameTable} (h : table.tokens ≠ #[]) :
    table.collect .stale = .error .outOfDate := by
  have hlist : table.tokens.toList ≠ [] := fun hnil => h (Array.toList_eq_nil_iff.1 hnil)
  rw [collect, Freshness.visit_stale hlist]
  rfl

/-- A collection is finished on a stale text only if there is no name to collect. -/
theorem Collector.finish_stale (s : Collector) :
    AllOrNothing .outOfDate (s.vars.tokens ≠ #[] ∨ s.labels.tokens ≠ #[]) (s.finish .stale)
      (s.finish .fresh) := by
  by_cases hvars : s.vars.tokens = #[]
  · by_cases hlabels : s.labels.tokens = #[]
    · have hfinish (state : Freshness) : s.finish state
          = .ok ⟨[], [], s.faults.toList ++ s.blocks.reverse.map fun t => ⟨.unmatchedDo, t⟩⟩ := by
        rw [finish, NameTable.collect_of_empty hvars, NameTable.collect_of_empty hlabels]
        rfl
      exact .of_not (by simp [hvars, hlabels]) (hfinish .stale) (hfinish .fresh)
    · refine .of_holds (Or.inr hlabels) ?_
      rw [finish, NameTable.collect_of_empty hvars, NameTable.collect_stale hlabels]
      rfl
  · refine .of_holds (Or.inl hvars) ?_
    rw [finish, NameTable.collect_stale hvars]
    rfl

/-! ### Parsing -/

namespace Reading

theorem consume_of_nil {l : Lexer} (h : l.input = []) (state : Freshness) (r : Reading) :
    consume state r l = .ok r := by
  rw [consume]
  split
  · rfl
  · rename_i hnext
    rw [Lexer.next_of_nil h] at hnext
    cases hnext

theorem consume_stale {l : Lexer} (h : l.input ≠ []) (r : Reading) :
    consume .stale r l = .error .outOfDate := by
  obtain ⟨c, cs, hinput⟩ := List.exists_cons_of_ne_nil h
  rw [consume]
  split
  · rename_i hnext
    rw [Lexer.next_of_cons hinput] at hnext
    cases hnext
  · rfl

end Reading

namespace Model

/-- A stale text is parsed only if there is nothing to parse. -/
theorem parseWhile_stale (uri text : String) :
    parseWhile .stale uri text = if text = "" then .ok (empty uri) else .error .outOfDate := by
  split
  · rename_i htext
    subst htext
    rw [parseWhile, Reading.consume_of_nil rfl]
    rfl
  · rename_i htext
    have hinput : (Lexer.ofText text).input ≠ [] := fun h => htext (String.toList_injective h)
    rw [parseWhile, Reading.consume_stale hinput]
    rfl

end Model

/-! ### Completion -/

namespace Completion.Prompt

/-- On a stale text, the items for a prompt are told only if there is no name to match. -/
theorem items_stale (q : Prompt) (m : Model) (mode : Matching) :
    AllOrNothing .outOfDate (q.typed ≠ "" ∨ m.vars ≠ [] ∨ m.labels ≠ []) (q.items m .stale mode)
      (q.items m .fresh mode) := by
  by_cases hvars : m.vars = []
  · by_cases hlabels : m.labels = []
    · by_cases htyped : q.typed = ""
      · refine .of_not (by simp [hvars, hlabels, htyped]) ?_ (items_fresh_eq q m mode)
        rw [items, builtins, builtins, offered, builtinNames, builtinNames, hvars, hlabels, htyped]
        rfl
      · refine .of_holds (Or.inl htyped) ?_
        have hfunctions : Freshness.stale.visit Vocabulary.functions = .error .outOfDate :=
          Freshness.visit_stale (List.cons_ne_nil _ _)
        rw [items, hvars, hlabels, builtins, if_neg (by simpa using htyped), hfunctions]
        rfl
    · refine .of_holds (Or.inr (Or.inr hlabels)) ?_
      rw [items, hvars, Freshness.visit_stale hlabels]
      rfl
  · refine .of_holds (Or.inr (Or.inl hvars)) ?_
    rw [items, Freshness.visit_stale hvars]
    rfl

end Completion.Prompt

/-- A visit as part of a query is all or nothing if the visit is. -/
theorem AllOrNothing.ofVisit {α : Type} {condition : Prop} {stale fresh : Except Cancelled α}
    (h : AllOrNothing .outOfDate condition stale fresh) :
    AllOrNothing .cancelled condition (Failure.ofVisit stale) (Failure.ofVisit fresh) := by
  by_cases hcondition : condition
  · exact .of_holds hcondition (by rw [h.givenUp_iff.2 hcondition]; rfl)
  · obtain ⟨a, hstale, hfresh⟩ := h.whole hcondition
    exact .of_not hcondition (by rw [hstale]; rfl) (by rw [hfresh]; rfl)

namespace Model

variable {m : Model} {place : Position} {t : Token}

/-- The anchor is one of the tokens. -/
theorem mem_of_anchor (h : m.anchor place = .ok (some t)) : t ∈ m.tokens := by
  obtain ⟨found, hfound, hrest⟩ := exists_of_bind_ok h
  cases found with
  | none => cases hrest
  | some i =>
      cases hi : m.tokens[i]? with
      | none =>
          simp only [hi] at hrest
          cases hrest
      | some u =>
          rw [anchor_eq hfound hi, Except.ok.injEq] at h
          split at h
          · exact Array.mem_of_getElem? h
          · obtain rfl := Option.some.inj h
            exact Array.mem_of_getElem? hi

/-- Completion fails, or has nothing to offer, or offers the items for a prompt.  Only the last of these looks
at the freshness of the text. -/
theorem complete_cases (m : Model) (place : Position) (mode : Matching) :
    (∃ cause, ∀ state, m.complete state place mode = .error (.overflow cause)) ∨
      ((∀ state, m.complete state place mode = .ok []) ∧
        ∀ t, m.anchor place = .ok (some t) → t.kind.isComment = true) ∨
      ∃ t q, m.anchor place = .ok (some t) ∧ t.kind.isComment = false ∧ promptAt t place = .ok q ∧
        ∀ state, m.complete state place mode = Failure.ofVisit (q.items m state mode) := by
  cases hanchor : m.anchor place with
  | error cause => exact Or.inl ⟨cause, fun state => by rw [complete, hanchor]; rfl⟩
  | ok found =>
  cases found with
  | none =>
      exact Or.inr (Or.inl ⟨fun state => by rw [complete, hanchor]; rfl, fun t ht => by cases ht⟩)
  | some t =>
  have hcomplete (state : Freshness) : m.complete state place mode
      = if t.kind.isComment then .ok [] else
        Failure.ofCount (promptAt t place) >>= fun q => Failure.ofVisit (q.items m state mode) := by
    rw [complete, hanchor]
    rfl
  cases hcomment : t.kind.isComment with
  | true =>
      refine Or.inr (Or.inl ⟨fun state => by rw [hcomplete, hcomment]; rfl, fun u hu => ?_⟩)
      obtain rfl := Option.some.inj (Except.ok.inj hu)
      exact hcomment
  | false =>
  cases hprompt : promptAt t place with
  | error cause =>
      exact Or.inl ⟨cause, fun state => by rw [hcomplete, hcomment, hprompt]; rfl⟩
  | ok q =>
      refine Or.inr (Or.inr ⟨t, q, rfl, hcomment, hprompt, fun state => ?_⟩)
      rw [hcomplete, hcomment, hprompt]
      rfl

/-- Whether completion at a place has a name to look at: after an anchor that is not a comment, when something
has been typed or there are names to offer without. -/
def HasNamesToMatch (m : Model) (place : Position) : Prop :=
  ∃ t, m.anchor place = .ok (some t) ∧ t.kind.isComment = false ∧
    (t.kind.isOpening = false ∨ m.vars ≠ [] ∨ m.labels ≠ [])

theorem hasNamesToMatch_iff (h : m.anchor place = .ok (some t)) (ht : t.kind.isComment = false) :
    m.HasNamesToMatch place ↔ t.kind.isOpening = false ∨ m.vars ≠ [] ∨ m.labels ≠ [] := by
  constructor
  · rintro ⟨u, hu, -, hnames⟩
    obtain rfl := Option.some.inj (Except.ok.inj (h.symm.trans hu))
    exact hnames
  · intro hnames
    exact ⟨t, h, ht, hnames⟩

/-- The prompt after a token of a text has typed text exactly if the token is not empty space. -/
theorem typed_ne_empty_iff {uri text : String} (ht : t ∈ (parse uri text).tokens) {q : Prompt}
    (hq : promptAt t place = .ok q) : q.typed ≠ "" ↔ t.kind.isOpening = false := by
  obtain ⟨p, hp, rfl⟩ := token_of_mem_tokens ht
  cases hopening : p.token.kind.isOpening with
  | true =>
      rw [promptAt_of_opening hopening] at hq
      obtain rfl := Except.ok.inj hq
      simp
  | false =>
      rcases exists_promptAt p.token place with ⟨range, hprompt⟩ | ⟨cause, -, hprompt⟩
      · rw [hopening] at hprompt
        obtain rfl := Except.ok.inj (hq.symm.trans hprompt)
        exact iff_of_true (Piece.token_text_ne_empty hp) rfl
      · cases hq.symm.trans hprompt

/-- Completion in a stale text is all or nothing, as long as the places of the text can be counted. -/
theorem complete_stale (uri text : String) (place : Position) (mode : Matching) :
    AllOrNothing .cancelled ((parse uri text).HasNamesToMatch place)
        ((parse uri text).complete .stale place mode) ((parse uri text).complete .fresh place mode) ∨
      Counter.placeLimit ≤ units text.toList ∧ ∃ cause, ∀ state,
        (parse uri text).complete state place mode = .error (.overflow cause) := by
  rcases complete_cases (parse uri text) place mode with
    ⟨cause, hfails⟩ | ⟨hnothing, hcomment⟩ | ⟨t, q, hanchor, hcomment, hprompt, hitems⟩
  · refine Or.inr ⟨Nat.not_lt.1 fun hunits => ?_, cause, hfails⟩
    obtain ⟨items, hitems, -⟩ := complete_name_text hunits place mode
    cases hitems.symm.trans (hfails .fresh)
  · refine Or.inl (.of_not ?_ (hnothing .stale) (hnothing .fresh))
    rintro ⟨t, hanchor, hnot, -⟩
    rw [hcomment t hanchor] at hnot
    cases hnot
  · refine Or.inl ?_
    rw [hasNamesToMatch_iff hanchor hcomment, ← typed_ne_empty_iff (mem_of_anchor hanchor) hprompt,
      hitems, hitems]
    exact (q.items_stale _ mode).ofVisit

/-! ### Outlines -/

theorem outline_stale (m : Model) :
    AllOrNothing .cancelled (m.labels ≠ []) (m.outline .stale) (m.outline .fresh) := by
  by_cases hlabels : m.labels = []
  · have houtline (state : Freshness) : m.outline state = .ok [m.fileEntry] := by
      rw [outline, hlabels]
      rfl
    exact .of_not (not_not.2 hlabels) (houtline .stale) (houtline .fresh)
  · refine .of_holds hlabels ?_
    rw [outline, Freshness.visit_stale hlabels]
    rfl

end Model

/-- **Work on a stale text is given up as a whole or not at all.**  A parse is given up unless the text is
empty, and then gives the empty model.  A collector, whatever it has found before, stops at the first keyword,
identifier or colon that it is fed, and is left as the tokens in front of it have made it; it hands over what
it has found only if that is no name.  Completion and outline of a parsed text are given up or give the very
list that they give for a fresh text: completion is given up after an anchor that is not a comment, if
something has been typed or there is a variable or a label, and the outline if there is a label.  Only in a text
of more units than can be counted may completion fail, and then it does so whether the text is fresh or not. -/
theorem stale_work_all_or_nothing :
    (∀ uri text, Model.parseWhile .stale uri text
      = if text = "" then .ok (Model.empty uri) else .error .outOfDate) ∧
    (∀ (s : Collector) (previous : Option Token) (t : Token) (next : Option Token),
      (t.kind = .keyword ∨ t.kind = .identifier ∨ t.kind = .colon →
        s.handle .stale previous t next = (.error .outOfDate, s)) ∧
      (¬ (t.kind = .keyword ∨ t.kind = .identifier ∨ t.kind = .colon) →
        ∀ state, s.handle state previous t next = (.ok (), s))) ∧
    (∀ (s : Collector) (previous : Option Token) (ts : List Token),
      s.feed .stale previous ts
        = (if Collector.unnoted ts = ts then .ok () else .error .outOfDate,
            (s.feed .fresh previous (Collector.unnoted ts)).2)) ∧
    (∀ s : Collector, AllOrNothing .outOfDate (s.vars.tokens ≠ #[] ∨ s.labels.tokens ≠ #[])
      (s.finish .stale) (s.finish .fresh)) ∧
    ∀ uri text, let m := Model.parse uri text
      AllOrNothing .cancelled (m.labels ≠ []) (m.outline .stale) (m.outline .fresh) ∧
      ∀ (place : Position) (mode : Matching),
        AllOrNothing .cancelled (m.HasNamesToMatch place) (m.complete .stale place mode)
            (m.complete .fresh place mode) ∨
          Counter.placeLimit ≤ units text.toList ∧ ∃ cause, ∀ state,
            m.complete state place mode = .error (.overflow cause) := by
  refine ⟨Model.parseWhile_stale, ?_, ?_, Collector.finish_stale, fun uri text => ?_⟩
  · intro s previous t next
    rw [← Token.Kind.isNoted_iff, Bool.not_eq_true]
    exact ⟨fun h => s.handle_stale h previous next, fun h state => s.handle_of_not_noted h state previous next⟩
  · intro s previous ts
    rw [Collector.feed_stale, Collector.feed_of_not_noted fun t => Collector.isNoted_of_mem_unnoted]
  · exact ⟨Model.outline_stale _, Model.complete_stale uri text⟩

/-- A collector with a label, a number that it need not note, and a keyword that it must. -/
theorem stale_work_all_or_nothing_keyword :
    let number : Token := ⟨.number, "1", 1, 0, 4, 5⟩
    let keyword : Token := ⟨.keyword, "do", 1, 2, 6, 8⟩
    let s := (Collector.empty.feed .fresh none [⟨.identifier, "a", 0, 0, 0, 1⟩, ⟨.colon, ":", 0, 1, 1, 2⟩]).2
    s.handle .stale none number (some keyword) = (.ok (), s) ∧
      s.handle .stale (some number) keyword none = (.error .outOfDate, s) ∧
      s.handle .fresh (some number) keyword none ≠ (.ok (), s) ∧
      s.feed .stale none [number, keyword] = (.error .outOfDate, s) ∧
      s.finish .stale = .error .outOfDate := by
  intro number keyword s
  obtain ⟨-, hhandle, hfeed, hfinish, -⟩ := stale_work_all_or_nothing
  refine ⟨(hhandle s none number _).2 (by decide) .stale, (hhandle s _ keyword none).1 (by decide), by decide,
    hfeed s none [number, keyword], (hfinish s).givenUp_iff.2 (by decide)⟩

end RexxService
