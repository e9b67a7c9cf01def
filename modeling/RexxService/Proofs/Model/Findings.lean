import Mathlib.Data.List.Nodup
import RexxService.Proofs.Model.Layout
import RexxService.Proofs.Symbols.Blocks
import RexxService.Proofs.Symbols.Occurrences

/-!
# What is found in a text

What a parse finds is described here by the tokens of the text alone, without the state that the parse
keeps on its way.

* **`names_are_first_occurrences`** — the variables and labels of a text are the first occurrences of
  their names;
* **`mem_riffle`**, **`kind_of_lexer_fault`** — a fault found on the way is one of the lexer or one of an
  `end`, and the lexer says nothing about blocks;
* **`nodup_faults`**, **`nodup_blockWords`** — no fault is reported twice, and no two keywords are the same
  token;
* **`block_faults_are_unmatched`** — the faults of `do` and `end` keywords are those that matching leaves
  without a partner.
-/

namespace RexxService

open RexxService.Lexeme

/-! ### Names -/

/-- **Exactly the right variables and labels are found.**  A token is a variable (a label) of a text
exactly when a variable (a label) occurs where it stands among the significant tokens, and none of the
same name occurs earlier. -/
theorem names_are_first_occurrences (uri text : String) (t : Token) :
    (t ∈ (Model.parse uri text).vars ↔
        FirstOf VariableAt (significant (Model.parse uri text).tokens.toList) t) ∧
      (t ∈ (Model.parse uri text).labels ↔
        FirstOf LabelAt (significant (Model.parse uri text).tokens.toList) t) := by
  rw [Model.parse_vars, Model.parse_labels, Model.parse_tokens, collected]
  exact ⟨Collector.mem_vars_sweep_iff _ t, Collector.mem_labels_sweep_iff _ t⟩

/-! ### Faults and where they come from -/

/-- A fault found on the way is one of the lexer or one of an `end`. -/
theorem mem_riffle {blocks : List Token} {ps : List Piece} {f : Fault} :
    f ∈ riffle blocks ps ↔
      f ∈ ps.filterMap Piece.fault ∨ f ∈ endFaults blocks (ps.map Piece.token) := by
  rw [(riffle_perm blocks ps).mem_iff, List.mem_append]

/-- The lexer says nothing about blocks. -/
theorem kind_of_lexer_fault {k : Cursor} {cs : List Char} {p : Piece} {f : Fault}
    (hp : p ∈ pieces k cs) (hf : p.fault = some f) :
    f.kind ≠ .unmatchedDo ∧ f.kind ≠ .unmatchedEnd := by
  have htable : ∀ kind text, faultFor kind text ≠ some .unmatchedDo ∧
      faultFor kind text ≠ some .unmatchedEnd := by
    intro kind text
    cases kind with
    | invalid =>
        rw [faultFor]
        split <;> simp
    | _ => simp [faultFor]
  obtain ⟨kind, hkind, rfl⟩ := Option.map_eq_some_iff.1 hf
  have hne := htable p.lexeme.kind p.lexeme.text
  rw [← lexeme_fault hp, hkind] at hne
  simpa using hne

/-- The kinds of faults that are found on the way. -/
theorem kind_of_mem_riffle {text : String} {f : Fault} (h : f ∈ riffle [] (piecesOf text)) :
    f.kind ≠ .unmatchedDo := by
  rcases mem_riffle.1 h with h | h
  · obtain ⟨p, hp, hf⟩ := List.mem_filterMap.1 h
    exact (kind_of_lexer_fault hp hf).1
  · simp [kind_of_mem_endFaults h]

namespace Model

variable (uri text : String)

theorem blocks_eq :
    (collected text).blocks = (blockWords (parse uri text).tokens.toList).foldl blocksAfter [] := by
  rw [collected, Collector.sweep_blocks, parse_tokens, ← foldl_blockWords, blockWords_significant]
  rfl

/-- The `do` keywords that are reported are those whose blocks stay open. -/
theorem unmatchedDo_mem_faults_iff (t : Token) :
    ⟨.unmatchedDo, t⟩ ∈ (parse uri text).faults ↔
      t ∈ (blockWords (parse uri text).tokens.toList).foldl blocksAfter [] := by
  have hriffle : ⟨.unmatchedDo, t⟩ ∉ riffle [] (piecesOf text) :=
    fun h => kind_of_mem_riffle h rfl
  rw [parse_faults, List.mem_append, or_iff_right hriffle, blocks_eq uri]
  simp

/-- The `end` keywords that are reported are those where no block is open. -/
theorem unmatchedEnd_mem_faults_iff (t : Token) :
    ⟨.unmatchedEnd, t⟩ ∈ (parse uri text).faults ↔
      ⟨.unmatchedEnd, t⟩ ∈ endFaults [] (blockWords (parse uri text).tokens.toList) := by
  have hlexer : ⟨.unmatchedEnd, t⟩ ∉ (piecesOf text).filterMap Piece.fault := by
    intro h
    obtain ⟨p, hp, hf⟩ := List.mem_filterMap.1 h
    exact (kind_of_lexer_fault hp hf).2 rfl
  rw [parse_faults, List.mem_append, mem_riffle, or_iff_right hlexer, endFaults_blockWords,
    parse_tokens]
  simp

/-! ### Nothing is there twice -/

theorem nodup_tokens : (parse uri text).tokens.toList.Nodup := by
  rw [parse_tokens, List.Nodup, List.pairwise_map]
  apply (pairwise_offset_pieces Cursor.origin text.toList).imp
  intro p q hlt heq
  have hoffset : p.start.offset = q.start.offset := congrArg Token.offset heq
  omega

theorem nodup_blockWords : (blockWords (parse uri text).tokens.toList).Nodup :=
  (nodup_tokens uri text).filter _

/-- Faults in the order of their tokens are all different. -/
theorem nodup_of_sublist {text : String} {fs : List Fault}
    (h : (fs.map Fault.token).Sublist ((piecesOf text).map Piece.token)) : fs.Nodup := by
  apply (pairwise_offset_of_sublist h).imp
  intro f g hlt heq
  rw [heq] at hlt
  omega

/-- No fault is reported twice. -/
theorem nodup_faults : (parse uri text).faults.Nodup := by
  have hriffle : (riffle [] (piecesOf text)).Nodup :=
    nodup_of_sublist (riffle_sublist _ _ fun p hp => fault_of_keyword hp)
  have htokens : (((collected text).blocks.reverse.map (Fault.mk .unmatchedDo)).map Fault.token).Sublist
      ((piecesOf text).map Piece.token) := by
    simpa [Function.comp_def] using reverse_blocks_collected text
  rw [parse_faults]
  refine List.nodup_append.2 ⟨hriffle, nodup_of_sublist htokens, ?_⟩
  intro f hf g hg heq
  obtain ⟨t, -, rfl⟩ := List.mem_map.1 hg
  exact kind_of_mem_riffle hf (congrArg Fault.kind heq)

end Model

/-! ### Blocks -/

/-- Where nothing is there twice, an element has one place only. -/
theorem exists_split_iff_of_nodup {P : List Token → List Token → Prop} {front back : List Token}
    {t : Token} (h : (front ++ t :: back).Nodup) :
    (∃ front' back', front ++ t :: back = front' ++ t :: back' ∧ P front' back') ↔ P front back := by
  obtain ⟨-, hback, hfront⟩ := List.nodup_append.1 h
  have hnot : t ∉ front := fun ht => hfront t ht t List.mem_cons_self rfl
  constructor
  · intro ⟨front', back', hsplit, hP⟩
    rw [List.append_cons_inj_of_notMem hnot (List.nodup_cons.1 hback).1] at hsplit
    obtain ⟨rfl, -, rfl⟩ := hsplit
    exact hP
  · intro hP
    exact ⟨front, back, rfl, hP⟩

/-- **The faults of `do` and `end` keywords are exactly the unmatched blocks.**  Of the keywords `do` and
`end` of a text, a `do` is reported when every segment that begins with it opens more blocks than it
closes, and an `end` when every segment that stops with it closes more blocks than it opens.  Nothing else
is reported so, and nothing twice. -/
theorem block_faults_are_unmatched (uri text : String) :
    (∀ front t back, blockWords (Model.parse uri text).tokens.toList = front ++ t :: back →
      (⟨.unmatchedDo, t⟩ ∈ (Model.parse uri text).faults ↔ t.isKeyword "do" = true ∧
        ∀ seg, seg <+: back → closed (t :: seg) < opened (t :: seg)) ∧
      (⟨.unmatchedEnd, t⟩ ∈ (Model.parse uri text).faults ↔ t.isKeyword "end" = true ∧
        ∀ seg, seg <:+ front → opened (seg ++ [t]) < closed (seg ++ [t]))) ∧
    ∀ f ∈ (Model.parse uri text).faults, f.kind = .unmatchedDo ∨ f.kind = .unmatchedEnd →
      f.token ∈ blockWords (Model.parse uri text).tokens.toList ∧
        (Model.parse uri text).faults.count f = 1 := by
  constructor
  · intro front t back hsplit
    have hnodup := Model.nodup_blockWords uri text
    rw [Model.unmatchedDo_mem_faults_iff, Model.unmatchedEnd_mem_faults_iff, mem_blocks_iff,
      mem_endFaults_iff]
    rw [hsplit] at hnodup ⊢
    exact ⟨exists_split_iff_of_nodup hnodup, exists_split_iff_of_nodup hnodup⟩
  · intro f hf hkind
    refine ⟨?_, List.count_eq_one_of_mem (Model.nodup_faults uri text) hf⟩
    obtain ⟨kind, t⟩ := f
    rcases hkind with rfl | rfl
    · rw [Model.unmatchedDo_mem_faults_iff, mem_blocks_iff] at hf
      obtain ⟨front, back, hsplit, -⟩ := hf
      simp [hsplit]
    · rw [Model.unmatchedEnd_mem_faults_iff, mem_endFaults_iff] at hf
      obtain ⟨front, back, hsplit, -⟩ := hf
      simp [hsplit]

/-- Of two nested blocks the inner one is closed; the `end` in front of them closes neither. -/
theorem block_faults_are_unmatched_nested :
    let stray : Token := ⟨.keyword, "End", 0, 0, 0, 3⟩
    let outer : Token := ⟨.keyword, "do", 0, 4, 4, 6⟩
    let inner : Token := ⟨.keyword, "DO", 0, 7, 7, 9⟩
    let last : Token := ⟨.keyword, "end", 0, 10, 10, 13⟩
    blockWords (Model.parse "a" "End do DO end").tokens.toList = [stray] ++ outer :: [inner, last] ∧
      ⟨.unmatchedDo, outer⟩ ∈ (Model.parse "a" "End do DO end").faults ∧
      (∀ seg, seg <+: [inner, last] → closed (outer :: seg) < opened (outer :: seg)) ∧
      ⟨.unmatchedDo, inner⟩ ∉ (Model.parse "a" "End do DO end").faults ∧
      (Model.parse "a" "End do DO end").faults.count ⟨.unmatchedEnd, stray⟩ = 1 := by
  intro stray outer inner last
  have hsplit : blockWords (Model.parse "a" "End do DO end").tokens.toList
      = [stray] ++ outer :: [inner, last] := by decide +kernel
  have houter : ⟨.unmatchedDo, outer⟩ ∈ (Model.parse "a" "End do DO end").faults := by decide +kernel
  have hstray : ⟨.unmatchedEnd, stray⟩ ∈ (Model.parse "a" "End do DO end").faults := by
    decide +kernel
  obtain ⟨hblocks, hrest⟩ := block_faults_are_unmatched "a" "End do DO end"
  refine ⟨hsplit, houter, ((hblocks _ _ _ hsplit).1.1 houter).2, ?_,
    (hrest _ hstray (Or.inr rfl)).2⟩
  intro hinner
  have hsegments := ((hblocks [stray, outer] inner [last] hsplit).1.1 hinner).2
  exact absurd (hsegments [last] List.prefix_rfl) (by decide +kernel)

end RexxService
