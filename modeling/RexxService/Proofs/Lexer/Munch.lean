import RexxService.Proofs.Lexeme.Munch
import RexxService.Proofs.Lexer.Coverage

/-!
# Maximal munch

A token is the longest beginning of the unread text that is a single token.  Its own text is cut into
that one token again, with the same fault if it has one, and every longer beginning of the unread text
is cut into that token and more.

* **`pieces_text_append`** — the pieces of a text that holds a lexeme and then a beginning of its rest;
* **`filter_fault_eq`** — the faults at a token are those of its own piece;
* **`exists_first_token`**, **`exists_first_token_of_faultless`** — the first token of a text is the lexeme at
  its beginning;
* **`maximal_munch`** — the law itself, for the tokens of every text.
-/

namespace RexxService

open RexxService.Text

/-- The pieces of a text that holds a lexeme and then a beginning of its rest: the lexeme comes first,
and what is behind it follows. -/
theorem pieces_text_append (k : Cursor) (c : Char) (cs : List Char) {back : List Char}
    (hback : back <+: (Lexeme.scan c cs).rest) :
    pieces k ((Lexeme.scan c cs).text ++ back)
      = ⟨(Lexeme.scan c cs).withRest back, k⟩ ::
        pieces (Piece.stop ⟨(Lexeme.scan c cs).withRest back, k⟩) back := by
  obtain ⟨ds, hds, -⟩ := Lexeme.exists_scan_text c cs
  rw [hds, List.cons_append, pieces_cons, Lexeme.scan_stable hds hback, Lexeme.withRest_rest]

/-- The text of a lexeme is a single piece. -/
theorem pieces_text (k : Cursor) (c : Char) (cs : List Char) :
    pieces k (Lexeme.scan c cs).text = [⟨(Lexeme.scan c cs).withRest [], k⟩] := by
  have h := pieces_text_append k c cs List.nil_prefix
  rw [List.append_nil, pieces_nil] at h
  exact h

/-- Pieces at other places have no faults at a token. -/
theorem filter_fault_eq_nil {ps : List Piece} {t : Token}
    (h : ∀ q ∈ ps, q.start.offset ≠ t.offset) :
    (ps.filterMap Piece.fault).filter (fun f => f.token == t) = [] := by
  rw [List.filter_eq_nil_iff]
  intro f hf heq
  obtain ⟨q, hq, hfault⟩ := List.mem_filterMap.1 hf
  apply h q hq
  rw [← q.token_offset, ← Piece.fault_token hfault, eq_of_beq heq]

/-- The faults at a token are those of its own piece. -/
theorem filter_fault_eq {ps : List Piece} {p : Piece}
    (hpairwise : ps.Pairwise fun p q => p.start.offset < q.start.offset) (hp : p ∈ ps) :
    (ps.filterMap Piece.fault).filter (fun f => f.token == p.token) = p.fault.toList := by
  obtain ⟨before, after, rfl⟩ := List.append_of_mem hp
  obtain ⟨-, hafter, hbefore⟩ := List.pairwise_append.1 hpairwise
  have hown : (p.fault.toList).filter (fun f => f.token == p.token) = p.fault.toList := by
    rw [List.filter_eq_self]
    intro f hf
    rw [Piece.fault_token (Option.mem_toList.1 hf)]
    exact beq_self_eq_true _
  have hleft : (before.filterMap Piece.fault).filter (fun f => f.token == p.token) = [] :=
    filter_fault_eq_nil fun q hq => Nat.ne_of_lt (hbefore q hq p List.mem_cons_self)
  have hright : (after.filterMap Piece.fault).filter (fun f => f.token == p.token) = [] :=
    filter_fault_eq_nil fun q hq => Nat.ne_of_gt ((List.pairwise_cons.1 hafter).1 q hq)
  rw [List.filterMap_append, filterMap_fault_cons, List.filter_append, List.filter_append, hleft, hown,
    hright, List.append_nil, List.nil_append]

/-- The first token of a text is the lexeme at its beginning, and no other fault is at it. -/
theorem exists_first_token {text : String} {c : Char} {cs : List Char} (h : text.toList = c :: cs) :
    ∃ t more, (tokenize text).1 = t :: more ∧ t.kind = (Lexeme.scan c cs).kind ∧
      t.text.toList = (Lexeme.scan c cs).text ∧
      (tokenize text).2.filter (fun f => f.token == t)
        = ((Lexeme.scan c cs).fault.map fun kind => ⟨kind, t⟩).toList := by
  have hpieces : piecesOf text = ⟨Lexeme.scan c cs, Cursor.origin⟩ ::
      pieces (Piece.stop ⟨Lexeme.scan c cs, Cursor.origin⟩) (Lexeme.scan c cs).rest := by
    rw [piecesOf, h, pieces_cons]
  have hfirst : ⟨Lexeme.scan c cs, Cursor.origin⟩ ∈ piecesOf text := by
    rw [hpieces]
    exact List.mem_cons_self
  have htokens := tokenize_tokens text
  rw [hpieces, List.map_cons] at htokens
  refine ⟨_, _, htokens, rfl, String.toList_ofList, ?_⟩
  rw [tokenize_faults]
  exact filter_fault_eq (pairwise_offset_pieces Cursor.origin text.toList) hfirst

/-- No fault is at the first token of a text if the lexeme at its beginning has none. -/
theorem exists_first_token_of_faultless {text : String} {c : Char} {cs : List Char}
    (h : text.toList = c :: cs) (hfault : (Lexeme.scan c cs).fault = none) :
    ∃ t more, (tokenize text).1 = t :: more ∧ t.kind = (Lexeme.scan c cs).kind ∧
      t.text.toList = (Lexeme.scan c cs).text ∧ ∀ f ∈ (tokenize text).2, f.token ≠ t := by
  obtain ⟨t, more, htokens, hkind, hspelling, hfaults⟩ := exists_first_token h
  rw [hfault] at hfaults
  refine ⟨t, more, htokens, hkind, hspelling, fun f hf heq => ?_⟩
  exact List.filter_eq_nil_iff.1 hfaults f hf (beq_iff_eq.2 heq)

theorem map_kind_fault (p : Piece) : p.fault.toList.map Fault.kind = p.lexeme.fault.toList := by
  rw [Piece.fault, Lexer.faultOf]
  cases p.lexeme.fault with
  | none => rfl
  | some kind => rfl

/-- **Maximal munch.**  The rest of a text from the place of one of its tokens begins with the text of
that token.  This text by itself is cut into exactly one token, of the same kind, and has the faults
that the token has in the whole text.  Every longer beginning of the rest is cut into more than one
token, and the first of these has the same kind and text. -/
theorem maximal_munch (text : String) {t : Token} (ht : t ∈ (tokenize text).1) :
    ∃ front rest, text.toList = front ++ rest ∧ units front = t.offset ∧ t.text.toList <+: rest ∧
      (∃ u, (tokenize t.text).1 = [u] ∧ u.kind = t.kind ∧ u.text = t.text) ∧
      (tokenize t.text).2.map Fault.kind
        = ((tokenize text).2.filter fun f => f.token == t).map Fault.kind ∧
      ∀ longer, longer <+: rest → t.text.toList.length < longer.length →
        ∃ u v more, (tokenize (String.ofList longer)).1 = u :: v :: more ∧
          u.kind = t.kind ∧ u.text = t.text := by
  rw [tokenize_tokens] at ht
  obtain ⟨p, hp, rfl⟩ := List.mem_map.1 ht
  obtain ⟨front, c, cs, htext, -, rfl⟩ := mem_pieces hp
  have hwhole := Lexeme.scan_append c cs
  have hown : piecesOf (String.ofList (Lexeme.scan c cs).text)
      = [⟨(Lexeme.scan c cs).withRest [], Cursor.origin⟩] := by
    rw [piecesOf, String.toList_ofList, pieces_text]
  refine ⟨front, c :: cs, htext, ?_, ?_, ?_, ?_, ?_⟩
  · rw [Piece.token_offset, Cursor.advance_offset]
    exact (Nat.zero_add _).symm
  · rw [Piece.token_text, String.toList_ofList, ← hwhole]
    exact List.prefix_append _ _
  · refine ⟨Piece.token ⟨(Lexeme.scan c cs).withRest [], Cursor.origin⟩, ?_, rfl, rfl⟩
    rw [Piece.token_text, tokenize_tokens, hown]
    rfl
  · have hfaults := filter_fault_eq (pairwise_offset_pieces Cursor.origin text.toList) hp
    rw [Piece.token_text, tokenize_faults, tokenize_faults, hown, piecesOf, hfaults, map_kind_fault,
      filterMap_fault_cons, List.filterMap_nil, List.append_nil, map_kind_fault,
      Lexeme.withRest_fault]
  · intro longer hlonger hlength
    rw [Piece.token_text, String.toList_ofList] at hlength
    obtain ⟨back, rfl⟩ : (Lexeme.scan c cs).text <+: longer := by
      refine List.prefix_of_prefix_length_le ?_ hlonger (Nat.le_of_lt hlength)
      rw [← hwhole]
      exact List.prefix_append _ _
    rw [← hwhole] at hlonger
    have hback := (List.prefix_append_right_inj _).1 hlonger
    obtain ⟨d, ds, rfl⟩ : ∃ d ds, back = d :: ds := by
      refine List.exists_cons_of_ne_nil ?_
      rintro rfl
      simp at hlength
    rw [tokenize_tokens, piecesOf, String.toList_ofList, pieces_text_append _ c cs hback, pieces_cons]
    exact ⟨_, _, _, rfl, rfl, rfl⟩

/-- Two characters behind a number have to be looked at to see that it has no exponent; the shorter
texts show only one of them, or none. -/
theorem maximal_munch_exponent :
    let t : Token := ⟨.number, "1e", 0, 0, 0, 2⟩
    t ∈ (tokenize "1e+x").1 ∧
      (∃ u, (tokenize "1e").1 = [u] ∧ u.kind = .number ∧ u.text = "1e") ∧
      ∃ u v more, (tokenize "1e+").1 = u :: v :: more ∧ u.kind = .number ∧ u.text = "1e" := by
  intro t
  have ht : t ∈ (tokenize "1e+x").1 := by decide +kernel
  obtain ⟨front, rest, htext, hunits, -, hown, -, hlonger⟩ := maximal_munch "1e+x" ht
  have hfront : front = [] := by
    have hlength := length_le_units front
    rw [hunits] at hlength
    exact List.length_eq_zero_iff.1 (Nat.le_zero.1 hlength)
  rw [hfront, List.nil_append] at htext
  rw [← htext] at hlonger
  exact ⟨ht, hown, hlonger ['1', 'e', '+'] (by decide) (by decide)⟩

end RexxService
