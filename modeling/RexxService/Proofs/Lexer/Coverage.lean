import RexxService.Proofs.Lexer.Pieces

/-!
# Tokens cover their text

The lexer comes to the end of every text, loses no character of it and leaves no gap.

* **`Reads`** — a run of the lexer: the tokens that it hands out in turn, and where it is then;
* **`reads_drain`**, **`reads_isPrefix`** — one run comes to the end of the text, and any other run
  hands out a beginning of the same tokens;
* **`InRange`**, **`inRange_advance`** — lines, columns and offsets stay in the ranges of their
  counters at every character of a text that is short enough;
* **`Covers`** — what it means for tokens to cover a text, and **`covers_tokenize`**.
-/

namespace RexxService

open RexxService.Text

/-! ### Runs of the lexer -/

namespace Lexer

/-- The lexer `l` hands out the tokens `ts` in turn and is `l'` then. -/
inductive Reads : Lexer → List Token → Lexer → Prop where
  | done (l : Lexer) : Reads l [] l
  | step {l l' l'' : Lexer} {t : Token} {ts : List Token} :
      l.next = some (t, l') → Reads l' ts l'' → Reads l (t :: ts) l''

/-- Draining is a run of the lexer, and nothing is left after it. -/
theorem reads_drain (k : Cursor) (cs : List Char) :
    ∀ l : Lexer, l.input = cs → l.cursor = k →
      Reads l l.drain.1 l.drain.2 ∧ l.drain.2.next = none := by
  fun_induction pieces k cs with
  | case1 k =>
      intro l hl _
      rw [drain_of_nil hl]
      exact ⟨.done l, next_of_nil hl⟩
  | case2 k c cs p ih =>
      intro l hl hk
      subst hk
      obtain ⟨hreads, hend⟩ := ih (l.past p) rfl rfl
      rw [drain_of_cons hl]
      exact ⟨.step (next_of_cons hl) hreads, hend⟩

/-- Every run hands out a beginning of the tokens that draining gives. -/
theorem reads_isPrefix {l l' : Lexer} {ts : List Token} (h : Reads l ts l') :
    ts <+: l.drain.1 := by
  induction h with
  | done l => exact List.nil_prefix
  | @step l l' l'' t ts hnext hrest ih =>
      cases hin : l.input with
      | nil =>
          rw [next_of_nil hin] at hnext
          cases hnext
      | cons c cs =>
          rw [next_of_cons hin] at hnext
          cases hnext
          rw [drain_of_cons hin]
          exact List.cons_prefix_cons.2 ⟨rfl, ih⟩

end Lexer

/-! ### Counters stay in range -/

namespace Cursor

/-- The place fits the counters for lines, columns and offsets. -/
structure InRange (k : Cursor) : Prop where
  line : k.position.line < Counter.placeLimit
  column : k.position.column < Counter.placeLimit
  offset : k.offset < Counter.offsetLimit

/-- One character moves line and column together by no more than its units. -/
theorem positionAfter_le (p : Position) (c : Char) (next : Option Char) :
    (positionAfter p c next).line + (positionAfter p c next).column
      ≤ p.line + p.column + charUnits c := by
  have hc := charUnits_pos c
  rw [positionAfter]
  split
  · simp only [Position.nextLine]
    omega
  · split
    · split
      · simp only [Position.right]
        omega
      · simp only [Position.nextLine]
        omega
    · simp only [Position.right]
      omega

/-- A text moves line and column together by no more than its units. -/
theorem advance_position_le (k : Cursor) (cs rest : List Char) :
    (k.advance cs rest).position.line + (k.advance cs rest).position.column
      ≤ k.position.line + k.position.column + units cs := by
  induction cs generalizing k with
  | nil => simp
  | cons c cs ih =>
      have hstep := positionAfter_le k.position c (cs.head?.or rest.head?)
      have hrest := ih (k.step c (cs.head?.or rest.head?))
      rw [advance_cons, units_cons]
      have hpos : (k.step c (cs.head?.or rest.head?)).position
          = positionAfter k.position c (cs.head?.or rest.head?) := rfl
      rw [hpos] at hrest
      omega

/-- In a text of fewer units than a counter for places can hold, every character is in range. -/
theorem inRange_advance {front back : List Char}
    (h : units (front ++ back) < Counter.placeLimit) : (origin.advance front back).InRange := by
  have hle := advance_position_le origin front back
  have horigin : origin.position.line + origin.position.column = 0 := rfl
  have hoffset : (origin.advance front back).offset = 0 + units front := advance_offset _ _ _
  have hlimits : Counter.placeLimit ≤ Counter.offsetLimit := by decide
  rw [units_append] at h
  rw [horigin] at hle
  exact ⟨by omega, by omega, by omega⟩

end Cursor

/-! ### Tokens without gaps -/

/-- The tokens cover the text: none is empty, their texts make up the text, their offsets run through
it without a gap, and each is the token of its text at its place. -/
structure Covers (text : String) (tokens : List Token) : Prop where
  nonempty : ∀ t ∈ tokens, t.text ≠ ""
  join : String.join (tokens.map (·.text)) = text
  first : ∀ t ∈ tokens.head?, t.offset = 0
  adjacent : tokens.IsChain fun t u => t.endOffset = u.offset
  last : ∀ t ∈ tokens.getLast?, t.endOffset = units text.toList
  canonical : ∀ t ∈ tokens, Token.ofText t.kind t.text t.start t.offset = .ok t

/-- The lexeme of a piece is not empty. -/
theorem lexeme_text_ne_nil {k : Cursor} {cs : List Char} {p : Piece} (h : p ∈ pieces k cs) :
    p.lexeme.text ≠ [] := by
  obtain ⟨front, c, rest, -, -, rfl⟩ := mem_pieces h
  exact Lexeme.scan_text_ne_nil c rest

/-- The pieces of a text stand at increasing offsets. -/
theorem pairwise_offset_pieces (k : Cursor) (cs : List Char) :
    (pieces k cs).Pairwise fun p q => p.start.offset < q.start.offset := by
  rw [← List.isChain_iff_pairwise]
  apply (isChain_pieces k cs).imp_of_mem_imp
  intro p q hp _ hpq
  have hpos : 0 < units p.lexeme.text := by
    have hlength := List.length_pos_iff.2 (lexeme_text_ne_nil hp)
    exact Nat.lt_of_lt_of_le hlength (length_le_units _)
  rw [hpq, p.stop_offset]
  omega

/-- A piece stops inside the text. -/
theorem stop_offset_le {k : Cursor} {cs : List Char} {p : Piece} (h : p ∈ pieces k cs) :
    p.stop.offset ≤ k.offset + units cs := by
  obtain ⟨front, c, rest, rfl, -, rfl⟩ := mem_pieces h
  have hscan := congrArg units (Lexeme.scan_append c rest)
  rw [units_append] at hscan
  rw [Piece.stop_offset, units_append, ← hscan]
  show (k.advance front (c :: rest)).offset + units (Lexeme.scan c rest).text ≤ _
  rw [Cursor.advance_offset]
  omega

/-- A piece is the token of its text at its place, if its end can be counted. -/
theorem ofText_token {p : Piece} (h : p.stop.offset < Counter.offsetLimit) :
    Token.ofText p.token.kind p.token.text p.token.start p.token.offset = .ok p.token := by
  rw [Token.ofText, p.token_text, String.toList_ofList, p.token_offset, Counter.add_eq_ok]
  · show Except.ok (Token.mk _ _ _ _ _ (p.start.offset + units p.lexeme.text)) = _
    rw [← p.stop_offset]
    rfl
  · rw [← p.stop_offset]
    exact h

theorem join_map_text (ps : List Piece) :
    String.join ((ps.map Piece.token).map (·.text))
      = String.ofList (ps.flatMap fun p => p.lexeme.text) := by
  induction ps with
  | nil => rfl
  | cons p ps ih =>
      rw [List.map_cons, List.map_cons, String.join_cons, ih, List.flatMap_cons, String.ofList_append]
      rfl

/-- The tokens of a text that can be counted cover it. -/
theorem covers_pieces {text : String} (h : units text.toList < Counter.offsetLimit) :
    Covers text ((piecesOf text).map Piece.token) where
  nonempty := by
    intro t ht
    obtain ⟨p, hp, rfl⟩ := List.mem_map.1 ht
    rw [p.token_text, Ne, String.ofList_eq_empty_iff]
    exact lexeme_text_ne_nil hp
  join := by
    rw [join_map_text, piecesOf, flatMap_text_pieces, String.ofList_toList]
  first := by
    intro t ht
    rw [List.head?_map] at ht
    obtain ⟨p, hp, rfl⟩ := Option.map_eq_some_iff.1 ht
    rw [p.token_offset, head_pieces hp]
    rfl
  adjacent := by
    apply List.isChain_map_of_isChain Piece.token _ (isChain_pieces _ _)
    intro p q hpq
    rw [p.token_endOffset, q.token_offset, hpq]
  last := by
    intro t ht
    rw [List.getLast?_map] at ht
    obtain ⟨p, hp, rfl⟩ := Option.map_eq_some_iff.1 ht
    rw [p.token_endOffset, getLast_pieces hp, Cursor.advance_offset]
    exact Nat.zero_add _
  canonical := by
    intro t ht
    obtain ⟨p, hp, rfl⟩ := List.mem_map.1 ht
    have hle := stop_offset_le hp
    have horigin : Cursor.origin.offset = 0 := rfl
    exact ofText_token (by omega)

/-- **The lexer is lossless, leaves no gap and always comes to an end.**  For every text whose places
can be counted: taking tokens comes to the end of the text with the tokens of the text, and taking
fewer gives a beginning of these; they cover the text; and no counter leaves its range on the way. -/
theorem covers_tokenize (text : String) (h : units text.toList < Counter.placeLimit) :
    (∃ last, Lexer.Reads (Lexer.ofText text) (tokenize text).1 last ∧ last.next = none) ∧
      (∀ ts l, Lexer.Reads (Lexer.ofText text) ts l → ts <+: (tokenize text).1) ∧
      Covers text (tokenize text).1 ∧
      ∀ front back, text.toList = front ++ back → (Cursor.origin.advance front back).InRange := by
  refine ⟨⟨_, Lexer.reads_drain _ _ (Lexer.ofText text) rfl rfl⟩, ?_, ?_, ?_⟩
  · intro ts l hreads
    exact Lexer.reads_isPrefix hreads
  · have hlimits : Counter.placeLimit ≤ Counter.offsetLimit := by decide
    rw [tokenize_tokens]
    exact covers_pieces (by omega)
  · intro front back htext
    rw [htext] at h
    exact Cursor.inRange_advance h

/-- A text with characters of one and of two units, and an unclosed string. -/
theorem covers_tokenize_unclosed :
    units "x = \"é😀".toList < Counter.placeLimit ∧ Covers "x = \"é😀" (tokenize "x = \"é😀").1 :=
  ⟨by decide, (covers_tokenize _ (by decide)).2.2.1⟩

end RexxService
