import Mathlib.Data.List.Induction
import RexxService.Proofs.Symbols.Sweep

/-!
# Blocks without a partner

The collector matches `do` with `end` on a stack.  Which of them stay without a partner can be said by
counting: a `do` does if no segment from it on has as many `end` as `do` keywords, and an `end` does if no
segment up to it has as many `do` as `end` keywords.

* **`blockWords`** — the keywords `do` and `end` of a list of tokens; nothing else moves the stack;
* **`opened`**, **`closed`** — how many of each a list has;
* **`unopened`**, **`unclosed`** — how many open blocks a list closes that it has not opened, and the blocks
  that it leaves open, with **`reverse_foldl_blocksAfter`**;
* **`unopened_le_iff`**, **`length_blocks_le_iff`** — the same by counting, over the beginnings and over the
  ends of a list;
* **`mem_blocks_iff`**, **`mem_endFaults_iff`** — the blocks that stay open and the faults of the `end`
  keywords, each described by where its keyword stands.
-/

namespace RexxService

def Token.isBlockWord (t : Token) : Bool := t.isKeyword "do" || t.isKeyword "end"

def blockWords (ts : List Token) : List Token := ts.filter Token.isBlockWord

def opened (ts : List Token) : Nat := ts.countP fun t => t.isKeyword "do"

def closed (ts : List Token) : Nat := ts.countP fun t => t.isKeyword "end"

section Counts

variable (t : Token) (ts us : List Token)

@[simp] theorem opened_nil : opened [] = 0 := rfl

@[simp] theorem closed_nil : closed [] = 0 := rfl

theorem opened_cons : opened (t :: ts) = opened ts + if t.isKeyword "do" then 1 else 0 :=
  List.countP_cons

theorem closed_cons : closed (t :: ts) = closed ts + if t.isKeyword "end" then 1 else 0 :=
  List.countP_cons

theorem opened_append : opened (ts ++ us) = opened ts + opened us := List.countP_append

theorem closed_append : closed (ts ++ us) = closed ts + closed us := List.countP_append

end Counts

variable {t : Token}

/-- A keyword is no other keyword. -/
theorem isKeyword_other {word other : String} (h : t.isKeyword word = true) (hne : word ≠ other) :
    t.isKeyword other = false := by
  simp only [Token.isKeyword, Bool.and_eq_true, beq_iff_eq] at h
  simp [Token.isKeyword, h.2, hne]

theorem not_end_of_do (h : t.isKeyword "do" = true) : t.isKeyword "end" = false :=
  isKeyword_other h (by decide)

theorem not_do_of_end (h : t.isKeyword "end" = true) : t.isKeyword "do" = false :=
  isKeyword_other h (by decide)

/-! ### Only keywords of blocks move the stack -/

theorem blocksAfter_do (h : t.isKeyword "do" = true) (blocks : List Token) :
    blocksAfter blocks t = t :: blocks := by
  simp [blocksAfter, h]

theorem blocksAfter_end (hdo : t.isKeyword "do" = false) (h : t.isKeyword "end" = true)
    (blocks : List Token) : blocksAfter blocks t = blocks.tail := by
  simp [blocksAfter, hdo, h]

theorem blocksAfter_other (hdo : t.isKeyword "do" = false) (hend : t.isKeyword "end" = false)
    (blocks : List Token) : blocksAfter blocks t = blocks := by
  simp [blocksAfter, hdo, hend]

theorem foldl_blockWords (blocks ts : List Token) :
    (blockWords ts).foldl blocksAfter blocks = ts.foldl blocksAfter blocks := by
  induction ts generalizing blocks with
  | nil => rfl
  | cons t ts ih =>
      by_cases h : t.isBlockWord = true
      · rw [blockWords, List.filter_cons_of_pos h]
        exact ih _
      · have hother := Bool.or_eq_false_iff.1 (Bool.eq_false_iff.2 h)
        rw [blockWords, List.filter_cons_of_neg h, List.foldl_cons,
          blocksAfter_other hother.1 hother.2]
        exact ih blocks

theorem endFaults_blockWords (blocks ts : List Token) :
    endFaults blocks (blockWords ts) = endFaults blocks ts := by
  induction ts generalizing blocks with
  | nil => rfl
  | cons t ts ih =>
      by_cases h : t.isBlockWord = true
      · rw [blockWords, List.filter_cons_of_pos h, endFaults, endFaults]
        exact congrArg _ (ih _)
      · have hother := Bool.or_eq_false_iff.1 (Bool.eq_false_iff.2 h)
        have hnone : endFault blocks t = none := by simp [endFault, hother.2]
        rw [blockWords, List.filter_cons_of_neg h, endFaults, hnone,
          blocksAfter_other hother.1 hother.2]
        exact ih blocks

/-- Keywords are significant, so leaving out the other tokens leaves the keywords of blocks. -/
theorem blockWords_significant (ts : List Token) : blockWords (significant ts) = blockWords ts := by
  rw [blockWords, significant, List.filter_filter]
  apply List.filter_congr
  intro t _
  cases h : t.kind.isTrivia with
  | false => simp
  | true => simp [Token.isBlockWord, isKeyword_of_ne (ne_keyword_of_trivia h)]

/-! ### Blocks that stay open -/

/-- The number of open blocks that a list closes besides those that it opens itself. -/
def unopened : List Token → Nat
  | [] => 0
  | t :: ts =>
      if t.isKeyword "do" then unopened ts - 1
      else if t.isKeyword "end" then unopened ts + 1
      else unopened ts

/-- The blocks that a list opens and leaves open, in order. -/
def unclosed : List Token → List Token
  | [] => []
  | t :: ts => if t.isKeyword "do" ∧ unopened ts = 0 then t :: unclosed ts else unclosed ts

/-- A list closes the innermost of the open blocks, and leaves its own on top of the others. -/
theorem reverse_foldl_blocksAfter (blocks ts : List Token) :
    (ts.foldl blocksAfter blocks).reverse
      = (blocks.drop (unopened ts)).reverse ++ unclosed ts := by
  induction ts generalizing blocks with
  | nil => simp [unopened, unclosed]
  | cons t ts ih =>
      rw [List.foldl_cons, ih]
      by_cases hdo : t.isKeyword "do" = true
      · rw [blocksAfter_do hdo]
        cases hn : unopened ts with
        | zero => simp [unopened, unclosed, hdo, hn]
        | succ n => simp [unopened, unclosed, hdo, hn]
      · have hdo' := Bool.eq_false_iff.2 hdo
        by_cases hend : t.isKeyword "end" = true
        · rw [blocksAfter_end hdo' hend]
          simp [unopened, unclosed, hdo', hend]
        · rw [blocksAfter_other hdo' (Bool.eq_false_iff.2 hend)]
          simp [unopened, unclosed, hdo', hend]

/-- The beginnings of a list show how many blocks it closes besides its own. -/
theorem unopened_le_iff (ts : List Token) (n : Nat) :
    unopened ts ≤ n ↔ ∀ seg, seg <+: ts → closed seg ≤ opened seg + n := by
  induction ts generalizing n with
  | nil => simp [unopened]
  | cons t ts ih =>
      -- All beginnings but the empty one hold the first token.
      have hsegments : (∀ seg, seg <+: t :: ts → closed seg ≤ opened seg + n) ↔
          ∀ seg, seg <+: ts → closed (t :: seg) ≤ opened (t :: seg) + n := by
        constructor
        · intro h seg hseg
          exact h (t :: seg) (List.cons_prefix_cons.2 ⟨rfl, hseg⟩)
        · intro h seg hseg
          cases seg with
          | nil => simp
          | cons u seg =>
              obtain ⟨rfl, hrest⟩ := List.cons_prefix_cons.1 hseg
              exact h seg hrest
      rw [hsegments]
      by_cases hdo : t.isKeyword "do" = true
      · simp only [unopened, opened_cons, closed_cons, hdo, not_end_of_do hdo, if_true,
          Bool.false_eq_true, if_false]
        rw [Nat.sub_le_iff_le_add, ih]
        exact forall₂_congr fun seg _ => by omega
      · by_cases hend : t.isKeyword "end" = true
        · simp only [unopened, opened_cons, closed_cons, hdo, hend, if_true]
          cases n with
          | zero =>
              constructor
              · intro h
                simp at h
              · intro h
                have hnil := h [] List.nil_prefix
                simp at hnil
          | succ n =>
              simp only [Bool.false_eq_true, if_false, Nat.add_le_add_iff_right, ih]
              exact forall₂_congr fun seg _ => by omega
        · simp [unopened, opened_cons, closed_cons, hdo, hend, ih]

theorem mem_unclosed_iff (ts : List Token) (t : Token) :
    t ∈ unclosed ts ↔ ∃ front back, ts = front ++ t :: back ∧ t.isKeyword "do" = true ∧
      unopened back = 0 := by
  induction ts with
  | nil => simp [unclosed]
  | cons u ts ih =>
      rw [exists_split_cons, ← ih, unclosed]
      split
      · rename_i hu
        rw [List.mem_cons]
        constructor
        · intro h
          rcases h with rfl | h
          · exact Or.inl ⟨rfl, hu⟩
          · exact Or.inr h
        · intro h
          exact h.imp (fun h => h.1.symm) id
      · rename_i hu
        constructor
        · intro h
          exact Or.inr h
        · intro h
          rcases h with ⟨rfl, h⟩ | h
          · exact absurd h hu
          · exact h

/-- **A block stays open exactly when every segment that begins with its `do` opens more blocks than it
closes.** -/
theorem mem_blocks_iff (ts : List Token) (t : Token) :
    t ∈ ts.foldl blocksAfter [] ↔ ∃ front back, ts = front ++ t :: back ∧ t.isKeyword "do" = true ∧
      ∀ seg, seg <+: back → closed (t :: seg) < opened (t :: seg) := by
  have hblocks := reverse_foldl_blocksAfter [] ts
  rw [List.drop_nil, List.reverse_nil, List.nil_append] at hblocks
  rw [← List.mem_reverse, hblocks, mem_unclosed_iff]
  refine exists₂_congr fun front back => and_congr_right fun _ => and_congr_right fun hdo => ?_
  rw [← Nat.le_zero, unopened_le_iff]
  simp only [opened_cons, closed_cons, hdo, not_end_of_do hdo, if_true, Bool.false_eq_true, if_false]
  exact forall₂_congr fun seg _ => by omega

/-! ### Ends without a block -/

/-- The ends of a list show how many blocks are open behind it. -/
theorem length_blocks_le_iff (ts : List Token) (n : Nat) :
    (ts.foldl blocksAfter []).length ≤ n ↔
      ∀ seg, seg <:+ ts → opened seg ≤ closed seg + n := by
  induction ts using List.reverseRecOn generalizing n with
  | nil => simp
  | append_singleton ts t ih =>
      -- All ends but the empty one hold the last token.
      have hsegments : (∀ seg, seg <:+ ts ++ [t] → opened seg ≤ closed seg + n) ↔
          ∀ seg, seg <:+ ts → opened (seg ++ [t]) ≤ closed (seg ++ [t]) + n := by
        constructor
        · intro h seg hseg
          exact h (seg ++ [t]) (List.suffix_concat_iff.2 (Or.inr ⟨seg, rfl, hseg⟩))
        · intro h seg hseg
          rcases List.suffix_concat_iff.1 hseg with rfl | ⟨seg, rfl, hrest⟩
          · simp
          · exact h seg hrest
      rw [hsegments, List.foldl_append, List.foldl_cons, List.foldl_nil]
      simp only [opened_append, closed_append, opened_cons, closed_cons, opened_nil, closed_nil]
      by_cases hdo : t.isKeyword "do" = true
      · rw [blocksAfter_do hdo]
        simp only [hdo, not_end_of_do hdo, if_true, Bool.false_eq_true, if_false, List.length_cons]
        cases n with
        | zero =>
            constructor
            · intro h
              simp at h
            · intro h
              have hnil := h [] List.nil_suffix
              simp at hnil
        | succ n =>
            rw [Nat.add_le_add_iff_right, ih]
            exact forall₂_congr fun seg _ => by omega
      · have hdo' := Bool.eq_false_iff.2 hdo
        by_cases hend : t.isKeyword "end" = true
        · rw [blocksAfter_end hdo' hend, List.length_tail, Nat.sub_le_iff_le_add, ih]
          simp only [hdo', hend, if_true, Bool.false_eq_true, if_false]
          exact forall₂_congr fun seg _ => by omega
        · rw [blocksAfter_other hdo' (Bool.eq_false_iff.2 hend), ih]
          simp [hdo, hend]

/-- The faults of `end` keywords stand where no block is open. -/
theorem mem_endFaults_iff_blocks (blocks ts : List Token) (t : Token) :
    ⟨.unmatchedEnd, t⟩ ∈ endFaults blocks ts ↔ ∃ front back, ts = front ++ t :: back ∧
      t.isKeyword "end" = true ∧ front.foldl blocksAfter blocks = [] := by
  induction ts generalizing blocks with
  | nil => simp [endFaults]
  | cons u ts ih =>
      have hhead : ⟨.unmatchedEnd, t⟩ ∈ (endFault blocks u).toList ↔
          u = t ∧ t.isKeyword "end" = true ∧ blocks = [] := by
        rw [endFault]
        split
        · rename_i hu
          simp only [Bool.and_eq_true, List.isEmpty_iff] at hu
          constructor
          · intro h
            obtain rfl : t = u := by simpa using h
            exact ⟨rfl, hu⟩
          · intro h
            simp [h.1]
        · rename_i hu
          simp only [Bool.and_eq_true, List.isEmpty_iff] at hu
          constructor
          · intro h
            simp at h
          · intro h
            exact absurd (h.1 ▸ h.2) hu
      rw [endFaults, List.mem_append, hhead, ih, exists_split_cons]
      rfl

/-- **An `end` is without a block exactly when every segment that stops with it closes more blocks than it
opens.** -/
theorem mem_endFaults_iff (ts : List Token) (t : Token) :
    ⟨.unmatchedEnd, t⟩ ∈ endFaults [] ts ↔ ∃ front back, ts = front ++ t :: back ∧
      t.isKeyword "end" = true ∧
        ∀ seg, seg <:+ front → opened (seg ++ [t]) < closed (seg ++ [t]) := by
  rw [mem_endFaults_iff_blocks]
  refine exists₂_congr fun front back => and_congr_right fun _ => and_congr_right fun hend => ?_
  rw [← List.length_eq_zero_iff, ← Nat.le_zero, length_blocks_le_iff]
  simp only [opened_append, closed_append, opened_cons, closed_cons, opened_nil, closed_nil, hend,
    not_do_of_end hend, if_true, Bool.false_eq_true, if_false]
  exact forall₂_congr fun seg _ => by omega

end RexxService
