import RexxService.Proofs.Lexer.Lines

/-!
# The places of a text

A place of a text is where a cursor gets to that has gone over a beginning of it.  Positions and offsets
of the places of one text tell the same: what comes later has the larger offset and the later position,
and on one line the two grow by the same amount.

* **`Position.lt_iff`**, **`Position.le_iff`** — the order of positions, by line and then by column;
* **`Cursor.Reaches`** — how one place of a text lies to a later one;
* **`reaches_of_offset_le`** — offsets decide which of two places is the later one;
* **`Token.Precedes`**, **`pairwise_precedes`** — tokens of a text come one after the other.
-/

namespace RexxService

open RexxService.Text RexxService.Lexeme

/-! ### The order of positions -/

namespace Position

instance : LT Position := ⟨fun p q => p.order q = .lt⟩

instance : LE Position := ⟨fun p q => p.order q ≠ .gt⟩

instance (p q : Position) : Decidable (p < q) := inferInstanceAs (Decidable (p.order q = .lt))

instance (p q : Position) : Decidable (p ≤ q) := inferInstanceAs (Decidable (p.order q ≠ .gt))

theorem lt_iff {p q : Position} :
    p < q ↔ p.line < q.line ∨ p.line = q.line ∧ p.column < q.column := by
  show p.order q = .lt ↔ _
  rw [order, Ordering.then_eq_lt, Nat.compare_eq_lt, Nat.compare_eq_eq, Nat.compare_eq_lt]

theorem not_lt {p q : Position} : ¬ p < q ↔ q ≤ p := by
  rw [lt_iff]
  show _ ↔ q.order p ≠ .gt
  rw [order, Ne, Ordering.then_eq_gt, Nat.compare_eq_gt, Nat.compare_eq_eq, Nat.compare_eq_gt]
  omega

theorem le_iff {p q : Position} :
    p ≤ q ↔ p.line < q.line ∨ p.line = q.line ∧ p.column ≤ q.column := by
  rw [← not_lt, lt_iff]
  omega

end Position

/-! ### Places -/

namespace Cursor

/-- The way from one place of a text to a later one: it leads to another line, or as many columns
along the same line as it goes over units. -/
structure Reaches (k k' : Cursor) : Prop where
  offset : k.offset ≤ k'.offset
  position : k.position.line < k'.position.line ∨
    k.position.line = k'.position.line ∧
      k'.position.column + k.offset = k.position.column + k'.offset

namespace Reaches

variable {k k' k'' : Cursor}

theorem refl (k : Cursor) : k.Reaches k := ⟨Nat.le_refl _, Or.inr ⟨rfl, rfl⟩⟩

theorem trans (h : k.Reaches k') (h' : k'.Reaches k'') : k.Reaches k'' := by
  obtain ⟨hoffset, hposition⟩ := h
  obtain ⟨hoffset', hposition'⟩ := h'
  exact ⟨by omega, by omega⟩

theorem position_le (h : k.Reaches k') : k.position ≤ k'.position := by
  obtain ⟨hoffset, hposition⟩ := h
  rw [Position.le_iff]
  omega

theorem position_lt (h : k.Reaches k') (hlt : k.offset < k'.offset) : k.position < k'.position := by
  obtain ⟨-, hposition⟩ := h
  rw [Position.lt_iff]
  omega

end Reaches

theorem reaches_step (k : Cursor) (c : Char) (next : Option Char) : k.Reaches (k.step c next) := by
  have hcr : charUnits '\r' = 1 := rfl
  refine ⟨Nat.le_add_right _ _, ?_⟩
  show k.position.line < (positionAfter k.position c next).line ∨
    k.position.line = (positionAfter k.position c next).line ∧
      (positionAfter k.position c next).column + k.offset = k.position.column + (k.offset + charUnits c)
  rw [positionAfter]
  split
  · exact Or.inl (Nat.lt_succ_self _)
  · split
    · rename_i hc
      split
      · rw [hc]
        exact Or.inr ⟨rfl, by simp only [Position.right]; omega⟩
      · exact Or.inl (Nat.lt_succ_self _)
    · exact Or.inr ⟨rfl, by simp only [Position.right]; omega⟩

theorem reaches_advance (k : Cursor) (cs rest : List Char) : k.Reaches (k.advance cs rest) := by
  induction cs generalizing k with
  | nil => exact .refl k
  | cons c cs ih => exact (reaches_step k c _).trans (ih _)

/-- Where a cursor gets to that has gone over a beginning of a text. -/
def IsPlaceOf (k : Cursor) (text : String) : Prop :=
  ∃ front back, text.toList = front ++ back ∧ k = origin.advance front back

/-- Offsets decide which of two places of a text is the later one. -/
theorem reaches_of_offset_le {text : String} {k k' : Cursor} (hk : k.IsPlaceOf text)
    (hk' : k'.IsPlaceOf text) (h : k.offset ≤ k'.offset) : k.Reaches k' := by
  obtain ⟨front, back, htext, rfl⟩ := hk
  obtain ⟨front', back', htext', rfl⟩ := hk'
  rw [advance_offset, advance_offset] at h
  rcases List.append_eq_append_iff.1 (htext.symm.trans htext') with
    ⟨mid, rfl, rfl⟩ | ⟨mid, rfl, rfl⟩
  · rw [advance_append]
    exact reaches_advance _ mid back'
  · -- The second place is not later, so there is nothing between the two.
    have hmid : mid = [] := by
      rw [units_append] at h
      have hlength := length_le_units mid
      exact List.length_eq_zero_iff.1 (by omega)
    subst hmid
    rw [List.append_nil, List.nil_append]
    exact .refl _

/-- Positions and offsets of the places of a text are in the same order. -/
theorem position_le_iff {text : String} {k k' : Cursor} (hk : k.IsPlaceOf text)
    (hk' : k'.IsPlaceOf text) : k.position ≤ k'.position ↔ k.offset ≤ k'.offset := by
  refine ⟨fun hle => ?_, fun hle => (reaches_of_offset_le hk hk' hle).position_le⟩
  by_contra hlt
  have hback := reaches_of_offset_le hk' hk (by omega)
  exact Position.not_lt.2 hle (hback.position_lt (by omega))

theorem offset_eq_of_position_eq {text : String} {k k' : Cursor} (hk : k.IsPlaceOf text)
    (hk' : k'.IsPlaceOf text) (h : k.position = k'.position) : k.offset = k'.offset := by
  have hself : k'.position ≤ k'.position := (Reaches.refl k').position_le
  refine Nat.le_antisymm ((position_le_iff hk hk').1 ?_) ((position_le_iff hk' hk).1 ?_)
  · rw [h]
    exact hself
  · rw [h]
    exact hself

end Cursor

/-! ### The places of pieces -/

theorem units_pos_of_ne_nil {cs : List Char} (h : cs ≠ []) : 0 < units cs :=
  Nat.lt_of_lt_of_le (List.length_pos_iff.2 h) (length_le_units cs)

namespace Piece

variable {text : String} {p q : Piece}

theorem start_isPlaceOf (h : p ∈ piecesOf text) : p.start.IsPlaceOf text := by
  obtain ⟨front, c, rest, htext, -, rfl⟩ := mem_pieces h
  exact ⟨front, c :: rest, htext, rfl⟩

theorem stop_isPlaceOf (h : p ∈ piecesOf text) : p.stop.IsPlaceOf text := by
  obtain ⟨front, c, rest, htext, -, rfl⟩ := mem_pieces h
  refine ⟨front ++ (scan c rest).text, (scan c rest).rest, ?_, ?_⟩
  · rw [List.append_assoc, scan_append, htext]
  · rw [Cursor.advance_append, scan_append]
    rfl

theorem start_lt_stop {k : Cursor} {cs : List Char} (h : p ∈ pieces k cs) :
    p.start.offset < p.stop.offset := by
  have hpos := units_pos_of_ne_nil (lexeme_text_ne_nil h)
  rw [p.stop_offset]
  omega

end Piece

theorem start_offset_ge {k : Cursor} {cs : List Char} {p : Piece} (h : p ∈ pieces k cs) :
    k.offset ≤ p.start.offset := by
  obtain ⟨front, c, rest, -, -, rfl⟩ := mem_pieces h
  rw [Cursor.advance_offset]
  exact Nat.le_add_right _ _

/-- A piece stops before each later piece begins. -/
theorem pairwise_stop_pieces (k : Cursor) (cs : List Char) :
    (pieces k cs).Pairwise fun p q => p.stop.offset ≤ q.start.offset := by
  fun_induction pieces k cs with
  | case1 => exact .nil
  | case2 k c cs p ih => exact List.pairwise_cons.2 ⟨fun q hq => start_offset_ge hq, ih⟩

theorem stop_le_start {k : Cursor} {cs : List Char} {i j : Nat} {p q : Piece}
    (hi : (pieces k cs)[i]? = some p) (hj : (pieces k cs)[j]? = some q) (hij : i < j) :
    p.stop.offset ≤ q.start.offset := by
  obtain ⟨hilt, rfl⟩ := List.getElem?_eq_some_iff.1 hi
  obtain ⟨hjlt, rfl⟩ := List.getElem?_eq_some_iff.1 hj
  exact List.pairwise_iff_getElem.1 (pairwise_stop_pieces k cs) i j hilt hjlt hij

/-! ### Tokens one after the other -/

namespace Token

/-- One token comes before another: it begins on an earlier line, or its units fit between the two
beginnings on one line. -/
def Precedes (t u : Token) : Prop :=
  t.line < u.line ∨ t.line = u.line ∧ t.column + (t.endOffset - t.offset) ≤ u.column

end Token

/-- The tokens of a text come one after the other. -/
theorem pairwise_precedes (text : String) :
    ((piecesOf text).map Piece.token).Pairwise Token.Precedes := by
  rw [List.pairwise_map]
  refine (pairwise_stop_pieces _ _).imp_of_mem ?_
  intro p q hp hq hpq
  have hstop := Piece.start_lt_stop hp
  obtain ⟨-, hposition⟩ := Cursor.reaches_of_offset_le (Piece.start_isPlaceOf hp)
    (Piece.start_isPlaceOf hq) (by omega)
  show p.start.position.line < q.start.position.line ∨ p.start.position.line = q.start.position.line ∧
    p.start.position.column + (p.stop.offset - p.start.offset) ≤ q.start.position.column
  omega

end RexxService
