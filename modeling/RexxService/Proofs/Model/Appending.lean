import RexxService.Proofs.Lexer.Appending
import RexxService.Proofs.Model.Findings

/-!
# What more lines leave alone

More lines behind a text may add names and faults to what is found in it, and may mend what was left open
at its end.  Everything else stays.

* **`Fault.isLasting`** — the faults that more lines do not mend;
* **`significant_append_line`** — the collector is shown the same tokens first;
* **`filter_lasting`** — the lasting faults of a text are those found on the way through its pieces, up to
  the one that goes on;
* **`appended_lines_keep_findings`** — names stay, in their order, and so do lasting faults, in front of
  all others.
-/

namespace RexxService

open RexxService.Lexeme

/-- Whether a fault stays when more lines follow: all do but unclosed comments and open blocks. -/
def Fault.isLasting (f : Fault) : Bool := f.kind != .unclosedComment && f.kind != .unmatchedDo

theorem Fault.isLasting_iff {f : Fault} :
    f.isLasting = true ↔ f.kind ≠ .unclosedComment ∧ f.kind ≠ .unmatchedDo := by
  simp [isLasting]

/-! ### Pieces -/

/-- The pieces of a text stay when more lines follow, but for one at its end that goes on. -/
theorem piecesOf_append_line (a b : String) :
    ∃ kept last added, piecesOf a = kept ++ last ∧
      piecesOf (a ++ "\n" ++ b) = kept.map (Piece.extend ('\n' :: b.toList)) ++ added ∧
      (∀ p ∈ kept, ¬ p.lexeme.GoesOn) ∧ ∀ p ∈ last, p.lexeme.GoesOn := by
  have htext : (a ++ "\n" ++ b).toList = a.toList ++ '\n' :: b.toList := by simp
  rw [piecesOf, piecesOf, htext]
  exact pieces_append_line _ _ _

/-- Only blanks and comments go on. -/
theorem isTrivia_of_goesOn {k : Cursor} {cs : List Char} {p : Piece} (hp : p ∈ pieces k cs)
    (h : p.lexeme.GoesOn) : p.token.kind.isTrivia = true := by
  rcases h.2 with hkind | hfault
  · rw [Piece.token_kind, hkind]
    rfl
  · rw [lexeme_fault hp] at hfault
    by_contra hshown
    exact faultFor_of_shown (by simpa using hshown) p.lexeme.text hfault

theorem significant_of_goesOn {text : String} {kept last : List Piece}
    (hpieces : piecesOf text = kept ++ last) (hlast : ∀ p ∈ last, p.lexeme.GoesOn) :
    significant (last.map Piece.token) = [] := by
  rw [significant, List.filter_eq_nil_iff]
  intro t ht
  obtain ⟨p, hp, rfl⟩ := List.mem_map.1 ht
  have hmem : p ∈ piecesOf text := hpieces ▸ List.mem_append_right kept hp
  simpa using isTrivia_of_goesOn hmem (hlast p hp)

/-- The collector is shown the tokens of a text first when more lines follow. -/
theorem significant_append_line (a b : String) :
    significant ((piecesOf a).map Piece.token)
      <+: significant ((piecesOf (a ++ "\n" ++ b)).map Piece.token) := by
  obtain ⟨kept, last, added, hpieces, hlonger, -, hlast⟩ := piecesOf_append_line a b
  have hnone := significant_of_goesOn hpieces hlast
  rw [significant] at hnone
  simp [significant, hpieces, hlonger, hnone, Function.comp_def]

/-! ### Faults on the way -/

theorem riffle_append (blocks : List Token) (ps qs : List Piece) :
    riffle blocks (ps ++ qs)
      = riffle blocks ps ++ riffle ((ps.map Piece.token).foldl blocksAfter blocks) qs := by
  induction ps generalizing blocks with
  | nil => rfl
  | cons p ps ih => simp [riffle, ih]

theorem riffle_extend (blocks : List Token) (more : List Char) (ps : List Piece) :
    riffle blocks (ps.map (Piece.extend more)) = riffle blocks ps := by
  induction ps generalizing blocks with
  | nil => rfl
  | cons p ps ih => simp [riffle, ih]

section Faults

variable {text : String} {kept last : List Piece}

/-- The faults on the way through pieces that do not go on are lasting. -/
theorem isLasting_of_kept (hpieces : piecesOf text = kept ++ last)
    (hkept : ∀ p ∈ kept, ¬ p.lexeme.GoesOn) {f : Fault} (hf : f ∈ riffle [] kept) :
    f.isLasting = true := by
  rw [Fault.isLasting_iff]
  constructor
  · intro hcomment
    rcases mem_riffle.1 hf with hf | hf
    · obtain ⟨p, hp, hfault⟩ := List.mem_filterMap.1 hf
      have hmem : p ∈ piecesOf text := hpieces ▸ List.mem_append_left last hp
      obtain ⟨kind, hkind, rfl⟩ := Option.map_eq_some_iff.1 hfault
      obtain ⟨front, c, rest, -, -, rfl⟩ := mem_pieces hmem
      exact hkept _ hp (goesOn_of_unclosedComment (hcomment ▸ hkind))
    · rw [kind_of_mem_endFaults hf] at hcomment
      cases hcomment
  · have hmem : f ∈ riffle [] (piecesOf text) := by
      rw [hpieces, riffle_append]
      exact List.mem_append_left _ hf
    exact kind_of_mem_riffle hmem

/-- The faults at pieces that go on are not. -/
theorem not_isLasting_of_goesOn (hpieces : piecesOf text = kept ++ last)
    (hlast : ∀ p ∈ last, p.lexeme.GoesOn) {blocks : List Token} {f : Fault}
    (hf : f ∈ riffle blocks last) : ¬ f.isLasting = true := by
  have hcomment : f.kind = .unclosedComment := by
    rcases mem_riffle.1 hf with hf | hf
    · obtain ⟨p, hp, hfault⟩ := List.mem_filterMap.1 hf
      have hmem : p ∈ piecesOf text := hpieces ▸ List.mem_append_right kept hp
      have htrivia := isTrivia_of_goesOn hmem (hlast p hp)
      obtain ⟨kind, hkind, rfl⟩ := Option.map_eq_some_iff.1 hfault
      rw [lexeme_fault hmem] at hkind
      rcases faultFor_of_trivia htrivia p.lexeme.text with hnone | hsome
      · cases hnone.symm.trans hkind
      · exact Option.some.inj (hkind.symm.trans hsome)
    · rw [← endFaults_significant, significant_of_goesOn hpieces hlast] at hf
      cases hf
  rw [Fault.isLasting_iff]
  exact fun h => h.1 hcomment

/-- The lasting faults of a text are those on the way through its pieces, up to one that goes on. -/
theorem filter_lasting (uri : String) (hpieces : piecesOf text = kept ++ last)
    (hkept : ∀ p ∈ kept, ¬ p.lexeme.GoesOn) (hlast : ∀ p ∈ last, p.lexeme.GoesOn) :
    (Model.parse uri text).faults.filter Fault.isLasting = riffle [] kept := by
  have hfront : (riffle [] kept).filter Fault.isLasting = riffle [] kept :=
    List.filter_eq_self.2 fun f hf => isLasting_of_kept hpieces hkept hf
  have hback : ∀ blocks, (riffle blocks last).filter Fault.isLasting = [] := fun blocks =>
    List.filter_eq_nil_iff.2 fun f hf => not_isLasting_of_goesOn hpieces hlast hf
  have hopen : ((collected text).blocks.reverse.map (Fault.mk .unmatchedDo)).filter Fault.isLasting
      = [] := by
    simp [Fault.isLasting]
  rw [Model.parse_faults, hpieces, riffle_append, List.filter_append, List.filter_append, hfront,
    hback, hopen, List.append_nil, List.append_nil]

end Faults

/-! ### What stays -/

/-- **Appended lines lose nothing.**  If a line break and any text follow a text, its variables are still
found, as the same tokens at the same places and in the same order, and so are its labels; and its faults,
apart from unclosed comments and open blocks, are reported first and in their order. -/
theorem appended_lines_keep_findings (uri a b : String) :
    (Model.parse uri a).vars.Sublist (Model.parse uri (a ++ "\n" ++ b)).vars ∧
      (Model.parse uri a).labels.Sublist (Model.parse uri (a ++ "\n" ++ b)).labels ∧
      (Model.parse uri a).faults.filter Fault.isLasting
        <+: (Model.parse uri (a ++ "\n" ++ b)).faults := by
  obtain ⟨more, hmore⟩ := significant_append_line a b
  refine ⟨?_, ?_, ?_⟩
  · rw [Model.parse_vars, Model.parse_vars, collected, collected, ← hmore]
    exact Collector.vars_sweep_sublist _ more
  · rw [Model.parse_labels, Model.parse_labels, collected, collected, ← hmore]
    exact Collector.labels_sweep_sublist _ more
  · obtain ⟨kept, last, added, hpieces, hlonger, hkept, hlast⟩ := piecesOf_append_line a b
    rw [filter_lasting uri hpieces hkept hlast, Model.parse_faults, hlonger, riffle_append,
      riffle_extend, List.append_assoc]
    exact List.prefix_append _ _

end RexxService
