import RexxService.Proofs.Lexer.Places

/-!
# The part of a text between two positions

A span names a part of a text by two positions.  `slice` cuts that part out, looking at nothing but the
text: a carriage return and the line feed after it stand at one position, so they are both in a span
or both outside.

* **`slice`** — the part of a text in a span;
* **`charactersIn_append`** — the characters of two texts in turn, unless a break is cut;
* **`slice_of_split`** — between the positions of two places of a text is what was read between them;
* **`slice_piece`** — the span of a token names the text of the token.
-/

namespace RexxService

open RexxService.Text RexxService.Lexeme

/-- Whether what stands at a position is in a span. -/
def Span.Covers (r : Span) (p : Position) : Prop := r.start ≤ p ∧ p < r.stop

instance (r : Span) (p : Position) : Decidable (r.Covers p) :=
  inferInstanceAs (Decidable (r.start ≤ p ∧ p < r.stop))

/-- The characters of a text, read from a position on, that are in a span. -/
def charactersIn (r : Span) (p : Position) : List Char → List Char
  | [] => []
  | '\r' :: '\n' :: cs => (if r.Covers p then ['\r', '\n'] else []) ++ charactersIn r p.nextLine cs
  | c :: cs =>
      (if r.Covers p then [c] else []) ++
        charactersIn r (if endsLine c then p.nextLine else p.right (charUnits c)) cs

def slice (text : String) (r : Span) : String :=
  String.ofList (charactersIn r Position.origin text.toList)

/-! ### Positions further on -/

namespace Position

theorem le_trans {p q r : Position} (hpq : p ≤ q) (hqr : q ≤ r) : p ≤ r := by
  rw [le_iff] at *
  omega

theorem lt_nextLine (p : Position) : p < p.nextLine := lt_iff.2 (Or.inl (Nat.lt_succ_self _))

theorem lt_right (p : Position) {n : Nat} (h : 0 < n) : p < p.right n :=
  lt_iff.2 (Or.inr ⟨rfl, Nat.lt_add_of_pos_right h⟩)

theorem le_of_lt {p q : Position} (h : p < q) : p ≤ q := by
  rw [lt_iff] at h
  rw [le_iff]
  omega

theorem lt_of_lt_of_le {p q r : Position} (hpq : p < q) (hqr : q ≤ r) : p < r := by
  rw [lt_iff] at *
  rw [le_iff] at hqr
  omega

theorem le_past (p : Position) (cs : List Char) : p ≤ p.past cs := by
  fun_induction past p cs with
  | case1 p => exact le_iff.2 (Or.inr ⟨rfl, Nat.le_refl _⟩)
  | case2 p cs ih | case3 p c cs _ _ ih => exact le_trans (le_of_lt p.lt_nextLine) ih
  | case4 p c cs _ _ ih => exact le_trans (le_of_lt (p.lt_right (charUnits_pos c))) ih

end Position

/-! ### Characters in a span -/

theorem charactersIn_append (r : Span) (p : Position) (cs : List Char) {ds : List Char}
    (h : ¬ SplitsBreak cs ds) :
    charactersIn r p (cs ++ ds) = charactersIn r p cs ++ charactersIn r (p.past cs) ds := by
  -- A break is cut by the boundary or it is whole on one of its sides.
  have hwhole : ∀ {c : Char} {cs : List Char}, ¬ SplitsBreak (c :: cs) ds →
      (∀ es, c = '\r' → cs = '\n' :: es → False) → ∀ es, c = '\r' → cs ++ ds = '\n' :: es → False := by
    rintro c cs hsplit hcrlf es rfl hes
    cases cs with
    | nil => exact hsplit ⟨rfl, by rw [← List.nil_append ds, hes]; rfl⟩
    | cons d cs =>
        obtain ⟨rfl, -⟩ := List.cons.inj hes
        exact hcrlf cs rfl rfl
  fun_induction Position.past p cs with
  | case1 p => rfl
  | case2 p cs ih =>
      have htail := ih (not_splitsBreak_tail (not_splitsBreak_tail h))
      rw [List.cons_append, List.cons_append, charactersIn, charactersIn, htail, List.append_assoc]
  | case3 p c cs hcrlf hc ih =>
      rw [List.cons_append, charactersIn.eq_3 _ _ _ _ (hwhole h hcrlf), charactersIn.eq_3 _ _ _ _ hcrlf,
        if_pos hc, ih (not_splitsBreak_tail h), List.append_assoc]
  | case4 p c cs hcrlf hc ih =>
      rw [List.cons_append, charactersIn.eq_3 _ _ _ _ (hwhole h hcrlf), charactersIn.eq_3 _ _ _ _ hcrlf,
        if_neg hc, ih (not_splitsBreak_tail h), List.append_assoc]

/-- If a span covers all positions of a text or none of them, then it has all of the text or nothing. -/
theorem charactersIn_eq_ite {r : Span} {p : Position} {cs : List Char} {b : Prop} [Decidable b]
    (h : ∀ q, p ≤ q → q < p.past cs → (r.Covers q ↔ b)) :
    charactersIn r p cs = if b then cs else [] := by
  have hhere {p q : Position} {cs : List Char} (hpq : p < q)
      (h : ∀ x, p ≤ x → x < q.past cs → (r.Covers x ↔ b)) : r.Covers p ↔ b :=
    h p (Position.le_past p []) (Position.lt_of_lt_of_le hpq (q.le_past cs))
  have hthere {p q : Position} {cs : List Char} (hpq : p < q)
      (h : ∀ x, p ≤ x → x < q.past cs → (r.Covers x ↔ b)) :
      ∀ x, q ≤ x → x < q.past cs → (r.Covers x ↔ b) :=
    fun x hx => h x (Position.le_trans (Position.le_of_lt hpq) hx)
  fun_induction Position.past p cs with
  | case1 p => rw [charactersIn, ite_self]
  | case2 p cs ih =>
      have hlater := p.lt_nextLine
      rw [charactersIn, ih (hthere hlater h)]
      simp only [hhere hlater h]
      split <;> rfl
  | case3 p c cs hcrlf hc ih =>
      have hlater := p.lt_nextLine
      rw [charactersIn.eq_3 _ _ _ _ hcrlf, if_pos hc, ih (hthere hlater h)]
      simp only [hhere hlater h]
      split <;> rfl
  | case4 p c cs hcrlf hc ih =>
      have hlater := p.lt_right (charUnits_pos c)
      rw [charactersIn.eq_3 _ _ _ _ hcrlf, if_neg hc, ih (hthere hlater h)]
      simp only [hhere hlater h]
      split <;> rfl

theorem charactersIn_eq_self {r : Span} {p : Position} {cs : List Char} (hstart : r.start ≤ p)
    (hstop : p.past cs ≤ r.stop) : charactersIn r p cs = cs := by
  have hcovers : ∀ q, p ≤ q → q < p.past cs → (r.Covers q ↔ True) := fun q hq hlt =>
    iff_true_intro ⟨Position.le_trans hstart hq, Position.lt_of_lt_of_le hlt hstop⟩
  rw [charactersIn_eq_ite hcovers, if_pos trivial]

theorem charactersIn_eq_nil {r : Span} {p : Position} {cs : List Char}
    (h : p.past cs ≤ r.start ∨ r.stop ≤ p) : charactersIn r p cs = [] := by
  have hcovers : ∀ q, p ≤ q → q < p.past cs → (r.Covers q ↔ False) := by
    intro q hq hlt
    refine iff_false_intro fun ⟨hstart, hstop⟩ => ?_
    rcases h with h | h
    · exact Position.not_lt.2 hstart (Position.lt_of_lt_of_le hlt h)
    · exact Position.not_lt.2 (Position.le_trans h hq) hstop
  rw [charactersIn_eq_ite hcovers, if_neg id]

/-- Between the positions of two places of a text is what was read between them. -/
theorem slice_of_split {text : String} {front mid back : List Char}
    (htext : text.toList = front ++ (mid ++ back)) (hfront : ¬ SplitsBreak front (mid ++ back))
    (hmid : ¬ SplitsBreak mid back) :
    slice text ⟨Position.origin.past front, (Position.origin.past front).past mid⟩
      = String.ofList mid := by
  have hself (p : Position) : p ≤ p := Position.le_past p []
  rw [slice, htext, charactersIn_append _ _ _ hfront, charactersIn_append _ _ _ hmid,
    charactersIn_eq_nil (Or.inl (hself _)), charactersIn_eq_self (hself _) (hself _),
    charactersIn_eq_nil (Or.inr (hself _)), List.nil_append, List.append_nil]

/-- The span of a token names the text of the token. -/
theorem slice_piece {text : String} {p : Piece} (hp : p ∈ piecesOf text) :
    slice text ⟨p.start.position, p.stop.position⟩ = p.token.text := by
  obtain ⟨front, c, rest, htext, hsplit, rfl⟩ := mem_pieces hp
  have hstart := Cursor.advance_position Cursor.origin front hsplit
  have hstop : (Piece.stop ⟨scan c rest, Cursor.origin.advance front (c :: rest)⟩).position
      = (Cursor.origin.advance front (c :: rest)).position.past (scan c rest).text :=
    Cursor.advance_position _ _ (scan_not_splitsBreak c rest)
  rw [← scan_append c rest] at htext hsplit
  rw [hstop, hstart]
  exact slice_of_split htext hsplit (scan_not_splitsBreak c rest)

end RexxService
