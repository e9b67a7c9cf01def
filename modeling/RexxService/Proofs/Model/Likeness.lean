import Mathlib.Data.List.Forall2
import RexxService.Proofs.Lexeme.Respelling
import RexxService.Proofs.Lexer.Pieces
import RexxService.Proofs.Model.Streaming
import RexxService.Proofs.Symbols.Likeness

/-!
# Models of like texts

What is found in a text does not depend on how its characters are spelled, as long as its tokens are alike.
-/

/-!
## A text in another spelling

A text and the same text in another spelling are cut into equally many pieces, and each piece of the one
is a piece of the other in its spelling (`pieces_respell`).  Where the pieces stand is another matter:
a spelling may be longer than the other.  What a relation between cursors has to do with it is left
open here, so that it may compare positions only, or offsets as well.
-/

namespace RexxService

open RexxService.Lexeme

/-- A piece, and the same piece in another spelling, at places that are related. -/
structure Respelled (σ : Respelling) (K : Cursor → Cursor → Prop) (p q : Piece) : Prop where
  lexeme : q.lexeme = p.lexeme.respell σ
  start : K p.start q.start

/-- **The pieces of a respelled text are the respelled pieces**, at related places if a piece and its
respelled form that begin at related places end at related places. -/
theorem pieces_respell (σ : Respelling) {K : Cursor → Cursor → Prop} (k k' : Cursor) (cs : List Char)
    (hstart : K k k')
    (hstop : ∀ p ∈ pieces k cs, ∀ q ∈ pieces k' (σ.apply cs), Respelled σ K p q → K p.stop q.stop) :
    List.Forall₂ (Respelled σ K) (pieces k cs) (pieces k' (σ.apply cs)) := by
  fun_induction pieces k cs generalizing k' with
  | case1 k =>
      rw [Respelling.apply_nil, pieces_nil]
      exact .nil
  | case2 k c cs p ih =>
      obtain ⟨d, ds, hspell⟩ := σ.exists_spell c
      have hscan := scan_respell σ hspell cs
      rw [Respelling.apply_cons, hspell, List.cons_append, pieces_cons, hscan] at hstop ⊢
      have hhead : Respelled σ K p ⟨(scan c cs).respell σ, k'⟩ := ⟨rfl, hstart⟩
      refine .cons hhead (ih _ ?_ ?_)
      · exact hstop p List.mem_cons_self _ List.mem_cons_self hhead
      · intro p' hp' q' hq'
        exact hstop p' (List.mem_cons_of_mem _ hp') q' (List.mem_cons_of_mem _ hq')

/-- Lists that agree element by element do so at elements of the lists. -/
theorem forall₂_mem {α β : Type} {R : α → β → Prop} {as : List α} {bs : List β}
    (h : List.Forall₂ R as bs) : List.Forall₂ (fun a b => a ∈ as ∧ b ∈ bs ∧ R a b) as bs := by
  refine List.forall₂_iff_zip.2 ⟨h.length_eq, fun hab => ?_⟩
  have hmem := List.of_mem_zip hab
  exact ⟨hmem.1, hmem.2, List.forall₂_zip h hab⟩

/-- Lists have one image if their elements do, one by one. -/
theorem map_eq_map_iff_forall₂ {α β γ : Type} {f : α → γ} {g : β → γ} {as : List α} {bs : List β} :
    as.map f = bs.map g ↔ List.Forall₂ (fun a b => f a = g b) as bs := by
  rw [← List.forall₂_eq_eq_eq, List.forall₂_map_left_iff, List.forall₂_map_right_iff]

/-!
## Like pieces

Two texts that are cut into like pieces have like models.

* **`Piece.Alike`** — pieces with like tokens and the same fault;
* **`forall₂_riffle`** — the faults found on the way through two texts are alike;
* **`alike_collected`**, **`forall₂_blocks_collected`** — for names and open blocks, only the tokens that
  the collector is shown have to be alike;
* **`parse_alike`** — the variables, labels and faults of the two models are alike, in this order.
-/

open List

variable {R : Token → Token → Prop} {s s' : String}

/-- Pieces with like tokens and the same fault. -/
structure Piece.Alike (R : Token → Token → Prop) (p q : Piece) : Prop where
  fault : p.lexeme.fault = q.lexeme.fault
  token : R p.token q.token

theorem Piece.Alike.rel_fault {p q : Piece} (h : p.Alike R q) :
    Option.Rel (Fault.Alike R) p.fault q.fault := by
  rw [Piece.fault, Piece.fault, Lexer.faultOf, Lexer.faultOf, ← h.fault]
  cases p.lexeme.fault with
  | none => exact .none
  | some kind => exact .some ⟨rfl, h.token⟩

theorem forall₂_toList {α : Type} {P : α → α → Prop} {a b : Option α} (h : Option.Rel P a b) :
    Forall₂ P a.toList b.toList := by
  cases h with
  | none => exact .nil
  | some hab => exact .cons hab .nil

/-- The faults found on the way through like pieces are alike. -/
theorem forall₂_riffle (hR : SameWords R) {ps qs : List Piece} (h : Forall₂ (Piece.Alike R) ps qs)
    {blocks blocks' : List Token} (hblocks : Forall₂ R blocks blocks') :
    Forall₂ (Fault.Alike R) (riffle blocks ps) (riffle blocks' qs) := by
  induction h generalizing blocks blocks' with
  | nil => exact .nil
  | @cons p q ps qs hpq _ ih =>
      have hlexer := forall₂_toList hpq.rel_fault
      have hend := forall₂_endFault hR hblocks hpq.token
      rw [riffle, riffle]
      exact rel_append (rel_append hlexer hend) (ih (forall₂_blocksAfter hR hblocks hpq.token))

/-! ### What the collector is shown -/

theorem alike_collected
    (h : Forall₂ (Token.Like R) (significant ((piecesOf s).map Piece.token))
      (significant ((piecesOf s').map Piece.token))) :
    (collected s).Alike R (collected s') :=
  Collector.alike_sweep h Collector.alike_empty .none

theorem forall₂_vars (uri uri' : String) (h : (collected s).Alike R (collected s')) :
    Forall₂ (Token.Like R) (Model.parse uri s).vars (Model.parse uri' s').vars := by
  rw [Model.parse_vars, Model.parse_vars]
  exact h.vars.sorted

theorem forall₂_labels (uri uri' : String) (h : (collected s).Alike R (collected s')) :
    Forall₂ (Token.Like R) (Model.parse uri s).labels (Model.parse uri' s').labels := by
  rw [Model.parse_labels, Model.parse_labels]
  exact h.labels.sorted

/-- The faults of the blocks that are still open are alike. -/
theorem forall₂_blocks_collected (hR : SameWords R)
    (h : Forall₂ R (significant ((piecesOf s).map Piece.token))
      (significant ((piecesOf s').map Piece.token))) :
    Forall₂ (Fault.Alike R) ((collected s).blocks.reverse.map (Fault.mk .unmatchedDo))
      ((collected s').blocks.reverse.map (Fault.mk .unmatchedDo)) := by
  rw [collected, collected, Collector.sweep_blocks, Collector.sweep_blocks]
  refine rel_map ?_ (rel_reverse (forall₂_foldl_blocksAfter hR h))
  intro t u htu
  exact ⟨rfl, htu⟩

/-! ### Texts cut into like pieces -/

/-- **Texts that are cut into like pieces have like variables, labels and faults.** -/
theorem parse_alike (hR : SameWords R) (uri uri' : String)
    (h : Forall₂ (Piece.Alike R) (piecesOf s) (piecesOf s')) :
    Forall₂ (Token.Like R) (Model.parse uri s).vars (Model.parse uri' s').vars ∧
      Forall₂ (Token.Like R) (Model.parse uri s).labels (Model.parse uri' s').labels ∧
      Forall₂ (Fault.Alike R) (Model.parse uri s).faults (Model.parse uri' s').faults := by
  have htokens : Forall₂ R ((piecesOf s).map Piece.token) ((piecesOf s').map Piece.token) :=
    rel_map (fun _ _ hpq => hpq.token) h
  have hshown := forall₂_significant hR htokens
  have hcollected := alike_collected hshown
  refine ⟨forall₂_vars uri uri' hcollected, forall₂_labels uri uri' hcollected, ?_⟩
  rw [Model.parse_faults, Model.parse_faults]
  have hblocks := forall₂_blocks_collected hR (hshown.imp fun _ _ htu => htu.like)
  exact rel_append (forall₂_riffle hR h .nil) hblocks

/-- The lexer finds like faults in like pieces. -/
theorem forall₂_tokenize_faults (h : Forall₂ (Piece.Alike R) (piecesOf s) (piecesOf s')) :
    Forall₂ (Fault.Alike R) (tokenize s).2 (tokenize s').2 := by
  rw [tokenize_faults, tokenize_faults]
  refine rel_filterMap ?_ h
  intro p q hpq
  exact hpq.rel_fault

end RexxService
