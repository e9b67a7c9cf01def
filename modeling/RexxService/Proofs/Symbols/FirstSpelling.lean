import Mathlib.Data.List.Sort
import RexxService.Proofs.Symbols.Sweep

/-!
# The first spelling of a name

A table of names keeps what it has.  A name that it has not seen is added behind the others, and a name that
it has seen keeps the token that was registered first.  In the end the tokens are put in the order of their
names, and no two of them have the same name.

* **`Lacks`** — no token of the table has a name;
* **`mem_tokens_register_iff`**, **`lacks_register_iff`** — what one registration does;
* **`registerAll`**, **`mem_tokens_registerAll`** — a token is in the table after a run of registrations
  exactly when it was there before or is the first of its name in the run;
* **`mem_sorted_iff`**, **`pairwise_sorted`** — sorting keeps all tokens, and their names increase strictly;
* **`registerAll_sublist`** — a longer run of registrations drops, renames and moves nothing that a shorter
  one has found.
-/

namespace RexxService

open RexxService.Text

/-! ### The order of names -/

theorem insertByKey_eq (e : String × Token) (es : List (String × Token)) :
    insertByKey e es = es.orderedInsert (fun a b => a.1 ≤ b.1) e := by
  induction es with
  | nil => rfl
  | cons f es ih => rw [insertByKey, List.orderedInsert_cons, ih]

/-- The keys of a sort are the names of its tokens, and the sort is an insertion sort. -/
theorem sortByName_eq (ts : List Token) :
    sortByName ts = ts.insertionSort fun t u => lowercase t.text ≤ lowercase u.text := by
  have hinsert : insertByKey = List.orderedInsert fun a b => a.1 ≤ b.1 :=
    funext fun e => funext fun es => insertByKey_eq e es
  have hkeys := List.map_insertionSort (r := fun t u : Token => lowercase t.text ≤ lowercase u.text)
    (s := fun a b : String × Token => a.1 ≤ b.1) (fun t => (lowercase t.text, t)) ts fun _ _ _ _ => Iff.rfl
  rw [sortByName, hinsert, ← List.insertionSort, ← hkeys, List.map_map]
  exact List.map_id _

theorem sortByName_perm (ts : List Token) : (sortByName ts).Perm ts := by
  rw [sortByName_eq]
  exact List.perm_insertionSort _ ts

theorem pairwise_sortByName (ts : List Token) :
    (sortByName ts).Pairwise fun t u => lowercase t.text ≤ lowercase u.text := by
  have : Std.Total fun t u : Token => lowercase t.text ≤ lowercase u.text :=
    ⟨fun t u => String.le_total (lowercase t.text) (lowercase u.text)⟩
  have : IsTrans Token fun t u => lowercase t.text ≤ lowercase u.text :=
    ⟨fun t u v => String.le_trans⟩
  rw [sortByName_eq]
  exact List.pairwise_insertionSort _ ts

namespace NameTable

variable {table : NameTable} {t : Token}

theorem mem_sorted_iff : t ∈ table.sorted ↔ t ∈ table.tokens := by
  rw [sorted, (sortByName_perm _).mem_iff, Array.mem_toList_iff]

/-- The tokens of a table stand in strictly increasing order of their names. -/
theorem pairwise_sorted (table : NameTable) :
    table.sorted.Pairwise fun t u => lowercase t.text < lowercase u.text := by
  have hdistinct : table.sorted.Pairwise fun t u => lowercase t.text ≠ lowercase u.text :=
    table.distinct.perm (sortByName_perm _).symm Ne.symm
  refine (pairwise_sortByName table.tokens.toList).imp₂ (fun t u hle hne => ?_) hdistinct
  apply String.not_le.1
  intro hge
  exact hne (String.le_antisymm hle hge)

theorem nodup_sorted (table : NameTable) : table.sorted.Nodup := by
  refine table.pairwise_sorted.imp fun hlt heq => ?_
  rw [heq] at hlt
  exact String.lt_irrefl _ hlt

/-- A table with more tokens has the tokens of another one in the same order. -/
theorem sorted_sublist {more : NameTable} (h : ∀ t ∈ table.tokens, t ∈ more.tokens) :
    table.sorted.Sublist more.sorted := by
  have : Std.Antisymm fun t u : Token => lowercase t.text < lowercase u.text :=
    ⟨fun t u hlt hgt => absurd hgt (String.lt_asymm hlt)⟩
  refine List.sublist_of_subperm_of_pairwise ?_ table.pairwise_sorted more.pairwise_sorted
  refine List.subperm_of_subset table.nodup_sorted fun t ht => ?_
  exact mem_sorted_iff.2 (h t (mem_sorted_iff.1 ht))

/-! ### One registration -/

def Lacks (table : NameTable) (name : String) : Prop :=
  ∀ t ∈ table.tokens, lowercase t.text ≠ name

theorem lacks_empty (name : String) : empty.Lacks name := by
  simp [Lacks, empty]

theorem lacks_iff (name : String) : table.Lacks name ↔ name ∉ table.seen := by
  simp [Lacks, table.seen_iff]

theorem register_of_seen (h : lowercase t.text ∈ table.seen) : table.register t = table := dif_pos h

theorem tokens_register (h : lowercase t.text ∉ table.seen) :
    (table.register t).tokens = table.tokens.push t := by
  rw [register, dif_neg h]

theorem seen_register (h : lowercase t.text ∉ table.seen) :
    (table.register t).seen = lowercase t.text :: table.seen := by
  rw [register, dif_neg h]

/-- A token is in the table after a registration if it was there, or if it is the one registered and
its name was lacking. -/
theorem mem_tokens_register_iff (t u : Token) :
    u ∈ (table.register t).tokens ↔ u ∈ table.tokens ∨ u = t ∧ table.Lacks (lowercase t.text) := by
  rw [lacks_iff]
  by_cases h : lowercase t.text ∈ table.seen
  · rw [register_of_seen h]
    simp [h]
  · rw [tokens_register h, Array.mem_push, and_iff_left h]

/-- After a registration the table has one more name. -/
theorem lacks_register_iff (t : Token) (name : String) :
    (table.register t).Lacks name ↔ table.Lacks name ∧ lowercase t.text ≠ name := by
  constructor
  · intro hlacks
    have hold : table.Lacks name := by
      intro u hu
      exact hlacks u ((mem_tokens_register_iff t u).2 (Or.inl hu))
    refine ⟨hold, ?_⟩
    intro heq
    -- The token is in the table now, since its name was lacking.
    exact hlacks t ((mem_tokens_register_iff t t).2 (Or.inr ⟨rfl, heq ▸ hold⟩)) heq
  · intro hlacks u hu
    rcases (mem_tokens_register_iff t u).1 hu with hu | ⟨rfl, -⟩
    · exact hlacks.1 u hu
    · exact hlacks.2

/-! ### A run of registrations -/

/-- A token stands in a list behind others of a kind only: it is the head, or the head is of that kind and
it stands so in the rest. -/
theorem exists_behind_cons {Q : Token → Prop} {w : Token} {ts : List Token} :
    (∃ front back, w :: ts = front ++ t :: back ∧ ∀ u ∈ front, Q u) ↔
      w = t ∨ Q w ∧ ∃ front back, ts = front ++ t :: back ∧ ∀ u ∈ front, Q u := by
  rw [exists_split_cons]
  constructor
  · intro h
    rcases h with ⟨rfl, -⟩ | ⟨front, back, hts, hfront⟩
    · exact Or.inl rfl
    · rw [List.forall_mem_cons] at hfront
      exact Or.inr ⟨hfront.1, front, back, hts, hfront.2⟩
  · intro h
    rcases h with rfl | ⟨hw, front, back, hts, hfront⟩
    · exact Or.inl ⟨rfl, by simp⟩
    · exact Or.inr ⟨front, back, hts, by simpa using ⟨hw, hfront⟩⟩

def registerAll (table : NameTable) (ts : List Token) : NameTable := ts.foldl register table

@[simp] theorem registerAll_nil (table : NameTable) : table.registerAll [] = table := rfl

@[simp] theorem registerAll_cons (table : NameTable) (t : Token) (ts : List Token) :
    table.registerAll (t :: ts) = (table.register t).registerAll ts := rfl

theorem registerAll_append (table : NameTable) (ts us : List Token) :
    table.registerAll (ts ++ us) = (table.registerAll ts).registerAll us :=
  List.foldl_append

/-- Registrations drop no token. -/
theorem mem_tokens_registerAll_of_mem {u : Token} (h : u ∈ table.tokens) (ts : List Token) :
    u ∈ (table.registerAll ts).tokens := by
  induction ts generalizing table with
  | nil => exact h
  | cons t ts ih => exact ih ((mem_tokens_register_iff t u).2 (Or.inl h))

/-- A longer run of registrations leaves what a shorter one has found. -/
theorem registerAll_sublist (table : NameTable) {ts us : List Token} (h : ts <+: us) :
    (table.registerAll ts).sorted.Sublist (table.registerAll us).sorted := by
  obtain ⟨more, rfl⟩ := h
  rw [registerAll_append]
  exact sorted_sublist fun t ht => mem_tokens_registerAll_of_mem ht more

/-- **The first spelling wins.**  A token is in the table after a run of registrations exactly when it was
there before, or its name was lacking and it is the first of its name in the run. -/
theorem mem_tokens_registerAll (ts : List Token) (t : Token) :
    t ∈ (table.registerAll ts).tokens ↔ t ∈ table.tokens ∨ table.Lacks (lowercase t.text) ∧
      ∃ front back, ts = front ++ t :: back ∧ ∀ u ∈ front, lowercase u.text ≠ lowercase t.text := by
  induction ts generalizing table with
  | nil => simp
  | cons w ts ih =>
      rw [registerAll_cons, ih, mem_tokens_register_iff, lacks_register_iff, exists_behind_cons]
      constructor
      · intro hmem
        rcases hmem with (ht | ⟨rfl, hlacks⟩) | ⟨⟨hlacks, hw⟩, hrest⟩
        · exact Or.inl ht
        · exact Or.inr ⟨hlacks, Or.inl rfl⟩
        · exact Or.inr ⟨hlacks, Or.inr ⟨hw, hrest⟩⟩
      · intro hmem
        rcases hmem with ht | ⟨hlacks, rfl | ⟨hw, hrest⟩⟩
        · exact Or.inl (Or.inl ht)
        · exact Or.inl (Or.inr ⟨rfl, hlacks⟩)
        · exact Or.inr ⟨⟨hlacks, hw⟩, hrest⟩

end NameTable

end RexxService
