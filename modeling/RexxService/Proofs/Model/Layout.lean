import RexxService.Proofs.Model.Likeness

/-!
# Layout does not matter

Blanks and comments separate other tokens, and have no other part in what is found in a text.  The faults
of unclosed comments apart, what is found depends on the kinds and texts of the other tokens only.

* **`SameContent`** — tokens of one kind with one text, wherever they stand;
* **`isVisible`**, **`filter_riffle`** — the faults without those of comments are the faults of the pieces
  without blanks and comments;
* **`forall₂_shown`** — pieces whose tokens have one content have one fault;
* **`layout_ignored`** — names and faults of two texts with the same tokens in other layouts.
-/

namespace RexxService

open RexxService.Text RexxService.Lexeme List

/-- What a token says, without its place. -/
def Token.content (t : Token) : Token.Kind × String := (t.kind, t.text)

/-- Tokens of one kind with one text. -/
def Token.SameContent (t u : Token) : Prop := t.content = u.content

theorem sameWords_sameContent : SameWords Token.SameContent := by
  intro t u h
  obtain ⟨hkind, htext⟩ := Prod.mk.inj h
  exact ⟨hkind, fun _ => congrArg asciiLower htext⟩

theorem significant_significant (ts : List Token) : significant (significant ts) = significant ts := by
  simp only [significant, List.filter_filter, Bool.and_self]

/-! ### Faults without those of comments -/

/-- Whether a fault is anything but an unclosed comment. -/
def Fault.isVisible (f : Fault) : Bool := f.kind != .unclosedComment

/-- The pieces that are neither blanks nor comments. -/
def shown (ps : List Piece) : List Piece := ps.filter fun p => !p.token.kind.isTrivia

theorem map_token_shown (ps : List Piece) :
    (shown ps).map Piece.token = significant (ps.map Piece.token) := by
  rw [significant, List.filter_map]
  rfl

theorem faultFor_of_trivia {kind : Token.Kind} (h : kind.isTrivia = true) (text : List Char) :
    faultFor kind text = none ∨ faultFor kind text = some .unclosedComment := by
  cases kind with
  | whitespace => exact Or.inl rfl
  | comment => exact Or.inl rfl
  | commentUnclosed => exact Or.inr rfl
  | _ => cases h

theorem faultFor_of_shown {kind : Token.Kind} (h : kind.isTrivia = false) (text : List Char) :
    faultFor kind text ≠ some .unclosedComment := by
  cases kind with
  | whitespace | comment | commentUnclosed => cases h
  | invalid =>
      rw [faultFor]
      split <;> decide
  | _ => simp [faultFor]

/-- Blanks and comments have no visible fault. -/
theorem filter_fault_of_trivia {k : Cursor} {cs : List Char} {p : Piece} (hp : p ∈ pieces k cs)
    (h : p.token.kind.isTrivia = true) : p.fault.toList.filter Fault.isVisible = [] := by
  rw [Piece.token_kind] at h
  rw [Piece.fault, Lexer.faultOf, lexeme_fault hp]
  rcases faultFor_of_trivia h p.lexeme.text with hfault | hfault
  · rw [hfault]
    rfl
  · rw [hfault]
    rfl

/-- All other pieces have visible faults only. -/
theorem filter_fault_of_shown {k : Cursor} {cs : List Char} {p : Piece} (hp : p ∈ pieces k cs)
    (h : p.token.kind.isTrivia = false) :
    p.fault.toList.filter Fault.isVisible = p.fault.toList := by
  rw [Piece.token_kind] at h
  have hne := faultFor_of_shown h p.lexeme.text
  rw [Piece.fault, Lexer.faultOf, lexeme_fault hp]
  cases hfault : faultFor p.lexeme.kind p.lexeme.text with
  | none => rfl
  | some kind =>
      rw [hfault] at hne
      refine List.filter_eq_self.2 fun f hf => ?_
      obtain rfl := List.mem_singleton.1 hf
      exact bne_iff_ne.2 fun hkind => hne (congrArg some hkind)

theorem filter_endFault (blocks : List Token) (t : Token) :
    (endFault blocks t).toList.filter Fault.isVisible = (endFault blocks t).toList := by
  rw [endFault]
  split
  · rfl
  · rfl

/-- The visible faults on the way through some pieces are the faults on the way through those that are
neither blanks nor comments. -/
theorem filter_riffle (blocks : List Token) {k : Cursor} {cs : List Char} {ps : List Piece}
    (h : ∀ p ∈ ps, p ∈ pieces k cs) :
    (riffle blocks ps).filter Fault.isVisible = riffle blocks (shown ps) := by
  induction ps generalizing blocks with
  | nil => rfl
  | cons p ps ih =>
      have hp := h p List.mem_cons_self
      have hrest := fun blocks => ih blocks fun q hq => h q (List.mem_cons_of_mem p hq)
      rw [riffle, List.filter_append, List.filter_append, filter_endFault, hrest]
      cases htrivia : p.token.kind.isTrivia with
      | true =>
          have hne := ne_keyword_of_trivia htrivia
          have hshown : shown (p :: ps) = shown ps := by
            rw [shown, List.filter_cons, htrivia]
            rfl
          rw [filter_fault_of_trivia hp htrivia, endFault_of_ne hne, blocksAfter_of_ne hne, hshown]
          rfl
      | false =>
          have hshown : shown (p :: ps) = p :: shown ps := by
            rw [shown, List.filter_cons, htrivia]
            rfl
          rw [filter_fault_of_shown hp htrivia, hshown, riffle]

/-! ### Texts with the same tokens -/

section Texts

variable {s s' : String}

/-- Pieces whose tokens have one content have one fault. -/
theorem forall₂_shown (h : Forall₂ Token.SameContent ((shown (piecesOf s)).map Piece.token)
      ((shown (piecesOf s')).map Piece.token)) :
    Forall₂ (Piece.Alike Token.SameContent) (shown (piecesOf s)) (shown (piecesOf s')) := by
  rw [forall₂_map_left_iff, forall₂_map_right_iff] at h
  refine (forall₂_mem h).imp ?_
  rintro p q ⟨hp, hq, hpq⟩
  obtain ⟨hkind, htext⟩ := Prod.mk.inj hpq
  refine ⟨?_, hpq⟩
  rw [Piece.token_kind, Piece.token_kind] at hkind
  rw [Piece.token_text, Piece.token_text, String.ofList_inj] at htext
  rw [lexeme_fault (List.mem_filter.1 hp).1, lexeme_fault (List.mem_filter.1 hq).1, hkind, htext]

theorem filter_parse_faults (uri s : String) :
    (Model.parse uri s).faults.filter Fault.isVisible = riffle [] (shown (piecesOf s)) ++
      (collected s).blocks.reverse.map (Fault.mk .unmatchedDo) := by
  have hblocks : ((collected s).blocks.reverse.map (Fault.mk .unmatchedDo)).filter Fault.isVisible
      = (collected s).blocks.reverse.map (Fault.mk .unmatchedDo) := by
    refine List.filter_eq_self.2 fun f hf => ?_
    obtain ⟨t, -, rfl⟩ := List.mem_map.1 hf
    rfl
  have hriffle : (riffle [] (piecesOf s)).filter Fault.isVisible = riffle [] (shown (piecesOf s)) :=
    filter_riffle [] fun _ hp => hp
  rw [Model.parse_faults, List.filter_append, hriffle, hblocks]

theorem map_text_eq {ts us : List Token} (h : Forall₂ (Token.Like Token.SameContent) ts us) :
    ts.map (·.text) = us.map (·.text) :=
  map_eq_map_iff_forall₂.2 (h.imp fun _ _ htu => (Prod.mk.inj htu.like).2)

/-- **Blanks and comments do not matter to what is found.**  If two texts have the same tokens, in kind
and text, apart from blanks and comments, then they have the same variables and the same labels and,
apart from unclosed comments, the same faults at tokens of the same texts, all in the same order. -/
theorem layout_ignored (uri uri' : String)
    (h : (significant (tokenize s).1).map Token.content
      = (significant (tokenize s').1).map Token.content) :
    (Model.parse uri s).vars.map (·.text) = (Model.parse uri' s').vars.map (·.text) ∧
      (Model.parse uri s).labels.map (·.text) = (Model.parse uri' s').labels.map (·.text) ∧
      ((Model.parse uri s).faults.filter Fault.isVisible).map (fun f => (f.kind, f.token.text))
        = ((Model.parse uri' s').faults.filter Fault.isVisible).map
          (fun f => (f.kind, f.token.text)) := by
  rw [tokenize_tokens, tokenize_tokens, map_eq_map_iff_forall₂] at h
  have hlike := forall₂_significant sameWords_sameContent h
  rw [significant_significant, significant_significant] at hlike
  have hcollected := alike_collected hlike
  have hblocks := forall₂_blocks_collected sameWords_sameContent h
  rw [← map_token_shown, ← map_token_shown] at h
  have hriffle := forall₂_riffle sameWords_sameContent (forall₂_shown h) .nil
  refine ⟨map_text_eq (forall₂_vars uri uri' hcollected),
    map_text_eq (forall₂_labels uri uri' hcollected), ?_⟩
  rw [filter_parse_faults, filter_parse_faults, map_eq_map_iff_forall₂]
  refine (rel_append hriffle hblocks).imp ?_
  rintro f g ⟨hkind, htoken⟩
  rw [hkind, (Prod.mk.inj htoken).2]

/-- The same tokens without a comment, and around comments of which the last one is not closed. -/
theorem layout_ignored_unclosed :
    let s := "end lab: x = 'a\nX = do"
    let s' := "/* */end\nlab :x/* = */= 'a\n\tX=do/*"
    (significant (tokenize s).1).map Token.content = (significant (tokenize s').1).map Token.content ∧
      (Model.parse "a" s).vars.map (·.text) = ["x"] ∧
      (Model.parse "a" s').vars.map (·.text) = ["x"] ∧
      (Model.parse "a" s).faults.map (fun f => (f.kind, f.token.text))
        = [(.unmatchedEnd, "end"), (.unclosedString, "'a"), (.unmatchedDo, "do")] ∧
      (Model.parse "a" s').faults.map (fun f => (f.kind, f.token.text))
        = [(.unmatchedEnd, "end"), (.unclosedString, "'a"), (.unclosedComment, "/*"),
          (.unmatchedDo, "do")] ∧
      ((Model.parse "a" s).faults.filter Fault.isVisible).map (fun f => (f.kind, f.token.text))
        = ((Model.parse "a" s').faults.filter Fault.isVisible).map
          (fun f => (f.kind, f.token.text)) := by
  intro s s'
  have h : (significant (tokenize s).1).map Token.content
      = (significant (tokenize s').1).map Token.content := by decide +kernel
  have hvars : (Model.parse "a" s).vars.map (·.text) = ["x"] := by decide +kernel
  obtain ⟨hsame, -, hfaults⟩ := layout_ignored "a" "a" h
  exact ⟨h, hvars, hsame.symm.trans hvars, by decide +kernel, by decide +kernel, hfaults⟩

end Texts

end RexxService
