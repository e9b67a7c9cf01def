import RexxService.Symbols

/-!
# The collector over a list of tokens

As long as the text is current, the collector never gives up.  Then it is a plain function:

* **`note`**, **`sweep`** — the collector after a token between its neighbours, and after a list of
  tokens, with **`handle_fresh`** and **`feed_fresh`**;
* **`symbols`** — what it has found, with **`finish_fresh`**.

Of the faults that it finds, only the open blocks and the token at hand decide.  So they are described
without the collector, by **`blocksAfter`** and **`endFault`**, and the faults that a collector has
already do not matter to anything else that it finds (`sweep_withFaults`).
-/

namespace RexxService

open RexxService.Text

/-- Whether a token is the keyword of a word, in any case. -/
def Token.isKeyword (t : Token) (word : String) : Bool :=
  t.kind == .keyword && asciiLower t.text == word

/-- The tokens that the collector is shown. -/
def significant (ts : List Token) : List Token := ts.filter fun t => !t.kind.isTrivia

theorem significant_cons_of_trivia {t : Token} (h : t.kind.isTrivia = true) (ts : List Token) :
    significant (t :: ts) = significant ts := by
  rw [significant, List.filter_cons, h]
  rfl

theorem significant_cons_of_shown {t : Token} (h : t.kind.isTrivia = false) (ts : List Token) :
    significant (t :: ts) = t :: significant ts := by
  rw [significant, List.filter_cons, h]
  rfl

/-- An element of a list, with what stands before and behind it: it is the head, or it stands in the rest
and the head is the first of what stands before it. -/
theorem exists_split_cons {α : Type} {P : List α → List α → Prop} {a b : α} {as : List α} :
    (∃ front back, b :: as = front ++ a :: back ∧ P front back) ↔
      b = a ∧ P [] as ∨ ∃ front back, as = front ++ a :: back ∧ P (b :: front) back := by
  constructor
  · intro ⟨front, back, hsplit, h⟩
    cases front with
    | nil =>
        obtain ⟨rfl, rfl⟩ := List.cons.inj hsplit
        exact Or.inl ⟨rfl, h⟩
    | cons c front =>
        obtain ⟨rfl, hrest⟩ := List.cons.inj hsplit
        exact Or.inr ⟨front, back, hrest, h⟩
  · intro h
    rcases h with ⟨rfl, h⟩ | ⟨front, back, rfl, h⟩
    · exact ⟨[], as, rfl, h⟩
    · exact ⟨b :: front, back, rfl, h⟩

/-- An element of a list with one more element at its end: one of the list, with that element behind it, or
the last one. -/
theorem exists_split_concat {α : Type} {P : List α → α → List α → Prop} {as : List α} {b : α} :
    (∃ front a back, as ++ [b] = front ++ a :: back ∧ P front a back) ↔
      (∃ front a back, as = front ++ a :: back ∧ P front a (back ++ [b])) ∨ P as b [] := by
  constructor
  · intro ⟨front, a, back, hsplit, h⟩
    rcases List.eq_nil_or_concat back with rfl | ⟨back, c, rfl⟩
    · obtain ⟨rfl, hlast⟩ := List.append_inj' hsplit rfl
      obtain rfl := List.singleton_inj.1 hlast
      exact Or.inr h
    · rw [List.concat_eq_append, ← List.cons_append, ← List.append_assoc] at hsplit
      obtain ⟨rfl, hlast⟩ := List.append_inj' hsplit rfl
      obtain rfl := List.singleton_inj.1 hlast
      rw [List.concat_eq_append] at h
      exact Or.inl ⟨front, a, back, rfl, h⟩
  · intro h
    rcases h with ⟨front, a, back, rfl, h⟩ | h
    · exact ⟨front, a, back ++ [b], by simp, h⟩
    · exact ⟨as, b, [], rfl, h⟩

/-! ### Blocks and their faults -/

/-- The open blocks after a token. -/
def blocksAfter (blocks : List Token) (t : Token) : List Token :=
  if t.isKeyword "do" then t :: blocks
  else if t.isKeyword "end" then blocks.tail
  else blocks

/-- The fault of an `end` when no block is open. -/
def endFault (blocks : List Token) (t : Token) : Option Fault :=
  if t.isKeyword "end" && blocks.isEmpty then some ⟨.unmatchedEnd, t⟩ else none

/-- The faults of the `end` keywords among tokens that follow each other. -/
def endFaults (blocks : List Token) : List Token → List Fault
  | [] => []
  | t :: ts => (endFault blocks t).toList ++ endFaults (blocksAfter blocks t) ts

theorem isKeyword_of_ne {t : Token} (h : t.kind ≠ .keyword) (word : String) :
    t.isKeyword word = false := by
  simp [Token.isKeyword, h]

theorem ne_keyword_of_trivia {t : Token} (h : t.kind.isTrivia = true) : t.kind ≠ .keyword := by
  intro hkind
  rw [hkind] at h
  cases h

theorem blocksAfter_of_ne {t : Token} (h : t.kind ≠ .keyword) (blocks : List Token) :
    blocksAfter blocks t = blocks := by
  rw [blocksAfter, isKeyword_of_ne h, isKeyword_of_ne h]
  rfl

theorem endFault_of_ne {t : Token} (h : t.kind ≠ .keyword) (blocks : List Token) :
    endFault blocks t = none := by
  rw [endFault, isKeyword_of_ne h]
  rfl

/-- The fault of an `end` says so, and stands at it. -/
theorem endFault_eq_some {blocks : List Token} {t : Token} {f : Fault}
    (h : endFault blocks t = some f) : t.kind = .keyword ∧ f = ⟨.unmatchedEnd, t⟩ := by
  by_cases hk : t.kind = .keyword
  · refine ⟨hk, ?_⟩
    rw [endFault] at h
    split at h
    · exact (Option.some.inj h).symm
    · cases h
  · rw [endFault_of_ne hk] at h
    cases h

theorem kind_of_mem_endFaults {blocks ts : List Token} {f : Fault} (h : f ∈ endFaults blocks ts) :
    f.kind = .unmatchedEnd := by
  induction ts generalizing blocks with
  | nil => cases h
  | cons t ts ih =>
      rcases List.mem_append.1 h with h | h
      · rw [(endFault_eq_some (Option.mem_toList.1 h)).2]
      · exact ih h

/-- Tokens that are not shown to the collector have no part in its faults. -/
theorem endFaults_significant (blocks ts : List Token) :
    endFaults blocks (significant ts) = endFaults blocks ts := by
  induction ts generalizing blocks with
  | nil => rfl
  | cons t ts ih =>
      cases h : t.kind.isTrivia with
      | false =>
          rw [significant_cons_of_shown h, endFaults, endFaults, ih]
      | true =>
          rw [significant_cons_of_trivia h, endFaults, endFault_of_ne (ne_keyword_of_trivia h),
            blocksAfter_of_ne (ne_keyword_of_trivia h), ih]
          rfl

/-- Blocks that are open were open before or have been opened since, and in this order. -/
theorem reverse_blocks_sublist (blocks ts : List Token) :
    (ts.foldl blocksAfter blocks).reverse.Sublist (blocks.reverse ++ ts) := by
  induction ts generalizing blocks with
  | nil =>
      rw [List.append_nil]
      exact List.Sublist.refl _
  | cons t ts ih =>
      have hstep : (blocksAfter blocks t).reverse.Sublist (blocks.reverse ++ [t]) := by
        rw [blocksAfter]
        split
        · exact List.reverse_cons ▸ List.Sublist.refl _
        · refine List.Sublist.trans ?_ (List.sublist_append_left _ _)
          split
          · exact (List.tail_sublist blocks).reverse
          · exact List.Sublist.refl _
      have hall := (ih (blocksAfter blocks t)).trans (hstep.append_right ts)
      rw [List.append_assoc] at hall
      exact hall

/-! ### Names in order -/

def NameTable.sorted (table : NameTable) : List Token := sortByName table.tokens.toList

theorem NameTable.collect_fresh (table : NameTable) : table.collect .fresh = .ok table.sorted := by
  rw [collect, Freshness.visit_fresh]
  rfl

namespace Collector

/-! ### One token -/

/-- The collector after a token between its neighbours. -/
def note (s : Collector) (previous : Option Token) (t : Token) (next : Option Token) : Collector :=
  match t.kind with
  | .keyword => s.onKeyword t
  | .identifier => s.onIdentifier t next
  | .colon => s.onColon previous
  | _ => s

theorem note_keyword {t : Token} (h : t.kind = .keyword) (s : Collector)
    (previous next : Option Token) : s.note previous t next = s.onKeyword t := by
  rw [note, h]

theorem note_identifier {t : Token} (h : t.kind = .identifier) (s : Collector)
    (previous next : Option Token) : s.note previous t next = s.onIdentifier t next := by
  rw [note, h]

theorem note_colon {t : Token} (h : t.kind = .colon) (s : Collector)
    (previous next : Option Token) : s.note previous t next = s.onColon previous := by
  rw [note, h]

theorem note_other {t : Token} (hkeyword : t.kind ≠ .keyword) (hidentifier : t.kind ≠ .identifier)
    (hcolon : t.kind ≠ .colon) (s : Collector) (previous next : Option Token) :
    s.note previous t next = s := by
  rw [note]
  split <;> first | rfl | contradiction

def withFaults (s : Collector) (faults : List Fault) : Collector :=
  { s with faults := faults.toArray }

@[simp] theorem withFaults_blocks (s : Collector) (fs : List Fault) :
    (s.withFaults fs).blocks = s.blocks := rfl

theorem withFaults_self (s : Collector) : s.withFaults s.faults.toList = s := by
  rw [withFaults, Array.toArray_toList]

theorem addFaults_eq (s : Collector) (fs : List Fault) :
    s.addFaults fs = s.withFaults (s.faults.toList ++ fs) := by
  have hfaults : s.faults ++ fs = (s.faults.toList ++ fs).toArray := by
    apply Array.toList_inj.1
    rw [Array.toList_appendList]
  rw [addFaults, hfaults]
  rfl

/-- A collector of a current text takes note of every token. -/
theorem handle_fresh (s : Collector) (previous : Option Token) (t : Token) (next : Option Token) :
    s.handle .fresh previous t next = (.ok (), s.note previous t next) := by
  rw [handle, note]
  generalize t.kind = kind
  cases kind <;> rfl

/-- A keyword changes the template, the blocks and the faults, each by itself. -/
theorem onKeyword_eq {t : Token} (h : t.kind = .keyword) (s : Collector) :
    s.onKeyword t = addFaults
      { s with
        inTemplate := templateAfter s.inTemplate (asciiLower t.text)
        blocks := blocksAfter s.blocks t }
      (endFault s.blocks t).toList := by
  have hword (word : String) : t.isKeyword word = decide (asciiLower t.text = word) := by
    rw [Token.isKeyword, h]
    rfl
  rw [onKeyword, matchBlock, blocksAfter, endFault, hword, hword]
  by_cases hdo : asciiLower t.text = "do"
  · simp [hdo, addFaults]
  by_cases hend : asciiLower t.text = "end"
  · cases s.blocks with
    | nil => simp [hend, addFaults]
    | cons b blocks => simp [hend, addFaults]
  · simp [hdo, hend, addFaults]

theorem note_blocks (s : Collector) (previous : Option Token) (t : Token) (next : Option Token) :
    (s.note previous t next).blocks = blocksAfter s.blocks t := by
  fun_cases note s previous t next with
  | case1 h => rw [onKeyword_eq h]; rfl
  | case2 h =>
      rw [blocksAfter_of_ne (by rw [h]; decide), onIdentifier]
      split <;> rfl
  | case3 h =>
      rw [blocksAfter_of_ne (by rw [h]; decide), onColon.eq_def]
      split <;> rfl
  | case4 h => rw [blocksAfter_of_ne h]

theorem withFaults_onIdentifier (s : Collector) (fs : List Fault) (t : Token)
    (next : Option Token) :
    (s.withFaults fs).onIdentifier t next = (s.onIdentifier t next).withFaults fs := by
  have hvariable : (s.withFaults fs).isVariable t next = s.isVariable t next := rfl
  rw [onIdentifier, onIdentifier, hvariable]
  split <;> rfl

theorem withFaults_onColon (s : Collector) (fs : List Fault) (previous : Option Token) :
    (s.withFaults fs).onColon previous = (s.onColon previous).withFaults fs := by
  cases previous with
  | none => rfl
  | some t => rfl

/-- Faults found before a token have no part in what is found at it. -/
theorem note_withFaults (s : Collector) (fs : List Fault) (previous : Option Token) (t : Token)
    (next : Option Token) :
    (s.withFaults fs).note previous t next
      = (s.note previous t next).withFaults (fs ++ (endFault s.blocks t).toList) := by
  by_cases hkeyword : t.kind = .keyword
  · rw [note_keyword hkeyword, note_keyword hkeyword, onKeyword_eq hkeyword, onKeyword_eq hkeyword,
      addFaults_eq, addFaults_eq]
    rfl
  rw [endFault_of_ne hkeyword, Option.toList_none, List.append_nil]
  by_cases hidentifier : t.kind = .identifier
  · rw [note_identifier hidentifier, note_identifier hidentifier, withFaults_onIdentifier]
  by_cases hcolon : t.kind = .colon
  · rw [note_colon hcolon, note_colon hcolon, withFaults_onColon]
  · rw [note_other hkeyword hidentifier hcolon, note_other hkeyword hidentifier hcolon]

theorem note_faults (s : Collector) (previous : Option Token) (t : Token) (next : Option Token) :
    (s.note previous t next).faults.toList
      = s.faults.toList ++ (endFault s.blocks t).toList := by
  have h := note_withFaults s s.faults.toList previous t next
  rw [withFaults_self] at h
  rw [h]
  rfl

/-! ### All tokens -/

/-- The collector after a list of tokens, each between its neighbours. -/
def sweep (s : Collector) (previous : Option Token) : List Token → Collector
  | [] => s
  | t :: ts => (s.note previous t ts.head?).sweep (some t) ts

def symbols (s : Collector) : Symbols :=
  ⟨s.vars.sorted, s.labels.sorted,
    s.faults.toList ++ s.blocks.reverse.map fun t => ⟨.unmatchedDo, t⟩⟩

/-- A collector of a current text takes note of all tokens. -/
theorem feed_fresh (s : Collector) (previous : Option Token) (ts : List Token) :
    s.feed .fresh previous ts = (.ok (), s.sweep previous ts) := by
  induction ts generalizing s previous with
  | nil => rfl
  | cons t ts ih =>
      rw [feed, handle_fresh]
      exact ih _ _

/-- A collector of a current text hands over what it has found. -/
theorem finish_fresh (s : Collector) : s.finish .fresh = .ok s.symbols := by
  rw [finish, NameTable.collect_fresh, NameTable.collect_fresh]
  rfl

theorem sweep_blocks (s : Collector) (previous : Option Token) (ts : List Token) :
    (s.sweep previous ts).blocks = ts.foldl blocksAfter s.blocks := by
  induction ts generalizing s previous with
  | nil => rfl
  | cons t ts ih => rw [sweep, ih, note_blocks, List.foldl_cons]

/-- Faults found before some tokens have no part in what is found at them. -/
theorem sweep_withFaults (s : Collector) (fs : List Fault) (previous : Option Token)
    (ts : List Token) :
    (s.withFaults fs).sweep previous ts
      = (s.sweep previous ts).withFaults (fs ++ endFaults s.blocks ts) := by
  induction ts generalizing s fs previous with
  | nil =>
      rw [endFaults, List.append_nil]
      rfl
  | cons t ts ih =>
      rw [sweep, sweep, note_withFaults, ih, note_blocks, endFaults, List.append_assoc]

theorem sweep_faults (s : Collector) (previous : Option Token) (ts : List Token) :
    (s.sweep previous ts).faults.toList = s.faults.toList ++ endFaults s.blocks ts := by
  have h := sweep_withFaults s s.faults.toList previous ts
  rw [withFaults_self] at h
  rw [h]
  rfl

theorem faults_sweep (ts : List Token) :
    (empty.sweep none ts).symbols.faults
      = endFaults [] ts ++ (ts.foldl blocksAfter []).reverse.map (Fault.mk .unmatchedDo) := by
  show (empty.sweep none ts).faults.toList ++ (empty.sweep none ts).blocks.reverse.map _ = _
  rw [sweep_faults, sweep_blocks]
  rfl

/-- The faults of the `end` keywords, among all faults that are found. -/
theorem filter_unmatchedEnd (ts : List Token) :
    (empty.sweep none ts).symbols.faults.filter (fun f => f.kind == .unmatchedEnd)
      = endFaults [] ts := by
  have hend : (endFaults [] ts).filter (fun f => f.kind == .unmatchedEnd) = endFaults [] ts := by
    rw [List.filter_eq_self]
    intro f hf
    rw [kind_of_mem_endFaults hf]
    rfl
  have hdo (blocks : List Token) :
      (blocks.map (Fault.mk .unmatchedDo)).filter (fun f => f.kind == .unmatchedEnd) = [] := by
    rw [List.filter_eq_nil_iff]
    intro f hf
    obtain ⟨t, -, rfl⟩ := List.mem_map.1 hf
    exact Bool.false_ne_true
  rw [faults_sweep, List.filter_append, hend, hdo, List.append_nil]

/-- The faults of the `do` keywords, among all faults that are found. -/
theorem filter_unmatchedDo (ts : List Token) :
    (empty.sweep none ts).symbols.faults.filter (fun f => f.kind == .unmatchedDo)
      = (ts.foldl blocksAfter []).reverse.map (Fault.mk .unmatchedDo) := by
  have hend : (endFaults [] ts).filter (fun f => f.kind == .unmatchedDo) = [] := by
    rw [List.filter_eq_nil_iff]
    intro f hf
    rw [kind_of_mem_endFaults hf]
    decide
  have hdo (blocks : List Token) :
      (blocks.map (Fault.mk .unmatchedDo)).filter (fun f => f.kind == .unmatchedDo)
        = blocks.map (Fault.mk .unmatchedDo) := by
    rw [List.filter_eq_self]
    intro f hf
    obtain ⟨t, -, rfl⟩ := List.mem_map.1 hf
    rfl
  rw [faults_sweep, List.filter_append, hend, hdo, List.nil_append]

end Collector

end RexxService
