import RexxService.Completion
import RexxService.Proofs.Lexer.Places
import RexxService.Proofs.Model.Streaming

/-!
# Finding tokens

Tokens that are not empty and come one after the other can be found by halving: all tokens behind a
position come last, and at most one token holds the position.  Places that cannot be counted make a
search fail, so each fact comes in two forms: what a search has found if it comes to an end, and that
it does come to an end where every token can be compared with the position.

* **`Token.Holds`** — a token holds a position on its first line;
* **`Orderly`** — tokens that are not empty and come one after the other;
* **`narrow_spec`** — halving finds the last token that does not lie behind the position;
* **`locate_of_holds`**, **`locate_of_not_holds`** — the token that is located;
* **`exists_anchor`** — a search for the token to extend comes to an end, and finds one of the tokens.
-/

namespace RexxService

/-- If a computation of two steps has a result, so has its first step. -/
theorem exists_of_bind_ok {ε α β : Type} {x : Except ε α} {f : α → Except ε β} {b : β}
    (h : x >>= f = .ok b) : ∃ a, x = .ok a ∧ f a = .ok b := by
  cases x with
  | error e => cases h
  | ok a => exact ⟨a, rfl, h⟩

theorem eq_ok_of_toOption {ε α : Type} {x : Except ε α} {a : α} (h : x.toOption = some a) :
    x = .ok a := by
  cases x with
  | error e => cases h
  | ok b => exact congrArg Except.ok (Option.some.inj h)

/-! ### A token and a position -/

namespace Token

/-- A token holds a position, read along its first line. -/
def Holds (t : Token) (p : Position) : Prop :=
  t.line = p.line ∧ t.column ≤ p.column ∧ p.column < t.column + (t.endOffset - t.offset)

instance (t : Token) (p : Position) : Decidable (t.Holds p) :=
  inferInstanceAs (Decidable (t.line = p.line ∧ t.column ≤ p.column ∧ p.column < _))

theorem Holds.not_behind {t : Token} {p : Position} (h : t.Holds p) : ¬ p < t.start := by
  obtain ⟨hline, hcolumn, -⟩ := h
  rw [Position.lt_iff]
  show ¬ (p.line < t.line ∨ p.line = t.line ∧ p.column < t.column)
  omega

/-- What a token says about a position, if it can be counted. -/
theorem contains_eq_ok {t : Token} {p : Position} {b : Bool} (h : t.contains p = .ok b) :
    b = decide (t.Holds p) := by
  rw [contains] at h
  split at h
  · rename_i hline
    obtain ⟨n, hn, h⟩ := exists_of_bind_ok h
    obtain ⟨stop, hstop, h⟩ := exists_of_bind_ok h
    have hlength : n = t.endOffset - t.offset := by
      rw [length, Counter.sub] at hn
      split at hn
      · exact (Except.ok.inj hn).symm
      · cases hn
    have hsum : stop = t.column + n := by
      rw [Counter.add] at hstop
      split at hstop
      · exact (Except.ok.inj hstop).symm
      · cases hstop
    obtain rfl := Except.ok.inj h
    rw [hsum, hlength]
    exact decide_eq_decide.2 ⟨fun h => ⟨hline.1, hline.2, h⟩, fun h => h.2.2⟩
  · rename_i hline
    obtain rfl := Except.ok.inj h
    exact (decide_eq_false fun hholds => hline ⟨hholds.1, hholds.2.1⟩).symm

/-- A token that can be counted can be compared with every position. -/
theorem exists_contains {t : Token} (hoffset : t.offset ≤ t.endOffset)
    (hcolumn : t.column + (t.endOffset - t.offset) < Counter.offsetLimit) (p : Position) :
    ∃ b, t.contains p = .ok b := by
  rw [contains]
  split
  · rw [length, Counter.sub_eq_ok hoffset]
    show ∃ b, (Counter.add Counter.offsetLimit t.column (t.endOffset - t.offset) >>= _) = _
    rw [Counter.add_eq_ok hcolumn]
    exact ⟨_, rfl⟩
  · exact ⟨_, rfl⟩

/-- A token that is not empty lies behind a position, holds it, or lies in front of it. -/
theorem side_eq_ok {t : Token} {p : Position} {side : Ordering} (hne : t.offset < t.endOffset)
    (h : t.side p = .ok side) : (side = .eq ↔ t.Holds p) ∧ (side = .gt ↔ p < t.start) := by
  obtain ⟨b, hb, h⟩ := exists_of_bind_ok h
  rw [contains_eq_ok hb] at h
  rw [Position.lt_iff]
  show _ ∧ (_ ↔ p.line < t.line ∨ p.line = t.line ∧ p.column < t.column)
  split at h
  · rename_i hholds
    obtain rfl := Except.ok.inj h
    have hholds := of_decide_eq_true hholds
    refine ⟨iff_of_true rfl hholds, iff_of_false Ordering.noConfusion ?_⟩
    obtain ⟨hline, hcolumn, -⟩ := hholds
    omega
  · rename_i hholds
    have hnot : ¬ (t.line = p.line ∧ t.column ≤ p.column ∧
        p.column < t.column + (t.endOffset - t.offset)) := fun h => hholds (decide_eq_true h)
    split at h
    · obtain rfl := Except.ok.inj h
      rw [Nat.compare_eq_eq, Nat.compare_eq_gt]
      exact ⟨⟨fun _ => by omega, fun h => (hnot h).elim⟩, by omega⟩
    · obtain rfl := Except.ok.inj h
      rw [Nat.compare_eq_eq, Nat.compare_eq_gt]
      exact ⟨⟨fun _ => by omega, fun h => (hnot h).elim⟩, by omega⟩

theorem exists_side {t : Token} {p : Position} (h : ∃ b, t.contains p = .ok b) :
    ∃ side, t.side p = .ok side := by
  obtain ⟨b, hb⟩ := h
  rw [side, hb]
  show ∃ side, (if b then _ else _) = _
  split
  · exact ⟨_, rfl⟩
  · split
    · exact ⟨_, rfl⟩
    · exact ⟨_, rfl⟩

end Token

/-! ### Tokens one after the other -/

/-- Tokens that are not empty and come one after the other. -/
structure Orderly (ts : List Token) : Prop where
  nonempty : ∀ t ∈ ts, t.offset < t.endOffset
  precedes : ts.Pairwise Token.Precedes

namespace Orderly

variable {ts : List Token} {p : Position} {i j : Nat} {t u : Token}

theorem precedes_of_lt (h : Orderly ts) (hi : ts[i]? = some t) (hj : ts[j]? = some u) (hij : i < j) :
    t.Precedes u := by
  obtain ⟨hilt, rfl⟩ := List.getElem?_eq_some_iff.1 hi
  obtain ⟨hjlt, rfl⟩ := List.getElem?_eq_some_iff.1 hj
  exact List.pairwise_iff_getElem.1 h.precedes i j hilt hjlt hij

/-- A token behind a token that holds a position or lies behind it lies behind it, too. -/
theorem behind_of_lt (h : Orderly ts) (hi : ts[i]? = some t) (hj : ts[j]? = some u) (hij : i < j)
    (ht : t.Holds p ∨ p < t.start) : p < u.start := by
  have hprecedes := h.precedes_of_lt hi hj hij
  rw [Token.Precedes] at hprecedes
  rw [Token.Holds, Position.lt_iff] at ht
  rw [Position.lt_iff]
  show p.line < u.line ∨ p.line = u.line ∧ p.column < u.column
  replace ht : (t.line = p.line ∧ t.column ≤ p.column ∧
    p.column < t.column + (t.endOffset - t.offset)) ∨
      (p.line < t.line ∨ p.line = t.line ∧ p.column < t.column) := ht
  omega

end Orderly

theorem orderly_pieces (text : String) : Orderly ((piecesOf text).map Piece.token) where
  nonempty := by
    intro t ht
    obtain ⟨p, hp, rfl⟩ := List.mem_map.1 ht
    exact Piece.start_lt_stop hp
  precedes := pairwise_precedes text

namespace Model

theorem orderly_parse (uri text : String) : Orderly (parse uri text).tokens.toList := by
  rw [parse_tokens]
  exact orderly_pieces text

/-! ### Halving -/

/-- Of the tokens that were looked at, the one found is the last that does not lie behind the
position, or the first of all. -/
theorem narrow_spec {tokens : Array Token} (hts : Orderly tokens.toList) {p : Position}
    {base size n : Nat} (hsize : 0 < size) (hfit : base + size ≤ tokens.size)
    (h : narrow tokens p base size = .ok n) :
    base ≤ n ∧ n < base + size ∧
      (∀ i t, n < i → i < base + size → tokens[i]? = some t → p < t.start) ∧
      (n = base ∨ ∃ t, tokens[n]? = some t ∧ ¬ p < t.start) := by
  fun_induction narrow tokens p base size with
  | case1 base size hle =>
      obtain rfl := Except.ok.inj h
      exact ⟨Nat.le_refl _, by omega, fun i t hlt hi => by omega, Or.inl rfl⟩
  | case2 base size hle hnone =>
      rw [Array.getElem?_eq_none_iff] at hnone
      omega
  | case3 base size hle t ht ih =>
      obtain ⟨side, hside, h⟩ := exists_of_bind_ok h
      have hmem : t ∈ tokens.toList := Array.mem_toList_iff.2 (Array.mem_of_getElem? ht)
      obtain ⟨-, hgt⟩ := Token.side_eq_ok (hts.nonempty t hmem) hside
      have hrest := ih side (by omega)
      by_cases hbehind : side = .gt
      · rw [if_pos hbehind] at h
        simp only [dif_pos hbehind] at hrest
        obtain ⟨hge, hlt, hall, hfound⟩ := hrest (by omega) h
        refine ⟨hge, by omega, ?_, hfound⟩
        intro i u hni hi hu
        by_cases him : i < base + size / 2
        · exact hall i u hni (by omega) hu
        · -- The tokens from the middle on lie behind the position, since the middle one does.
          obtain rfl | hmid : i = base + size / 2 ∨ base + size / 2 < i := by omega
          · obtain rfl := Option.some.inj (ht.symm.trans hu)
            exact hgt.1 hbehind
          · rw [← Array.getElem?_toList] at ht hu
            exact hts.behind_of_lt ht hu hmid (Or.inr (hgt.1 hbehind))
      · rw [if_neg hbehind] at h
        simp only [dif_neg hbehind] at hrest
        obtain ⟨hge, hlt, hall, hfound⟩ := hrest (by omega) h
        refine ⟨by omega, by omega, fun i u hni hi => hall i u hni (by omega), Or.inr ?_⟩
        rcases hfound with rfl | hfound
        · exact ⟨t, ht, fun hlt => hbehind (hgt.2 hlt)⟩
        · exact hfound

theorem exists_narrow {tokens : Array Token} {p : Position}
    (h : ∀ t ∈ tokens, ∃ b, t.contains p = .ok b) (base size : Nat) :
    ∃ n, narrow tokens p base size = .ok n := by
  fun_induction narrow tokens p base size with
  | case1 base size hle => exact ⟨_, rfl⟩
  | case2 base size hle hnone => exact ⟨_, rfl⟩
  | case3 base size hle t ht ih =>
      obtain ⟨side, hside⟩ := Token.exists_side (h t (Array.mem_of_getElem? ht))
      rw [hside]
      have hrest := ih side
      rw [dite_eq_ite] at hrest
      exact hrest

/-! ### The located token -/

/-- A search that comes to an end finds the token that holds the position. -/
theorem locate_of_holds {m : Model} (hts : Orderly m.tokens.toList) {p : Position} {found : Option Nat}
    (h : m.locate p = .ok found) {i : Nat} {t : Token} (ht : m.tokens[i]? = some t)
    (hholds : t.Holds p) : found = some i := by
  obtain ⟨hi, -⟩ := Array.getElem?_eq_some_iff.1 ht
  have hmem : t ∈ m.tokens.toList := Array.mem_toList_iff.2 (Array.mem_of_getElem? ht)
  obtain ⟨n, hn, h⟩ := exists_of_bind_ok h
  obtain ⟨-, hlt, hall, hfound⟩ := narrow_spec hts (by omega) (by omega) hn
  -- The tokens after this one lie behind the position, and this one does not.
  have heq : n = i := by
    rcases Nat.lt_trichotomy n i with hni | hni | hni
    · exact (hholds.not_behind (hall i t hni (by omega) ht)).elim
    · exact hni
    · rcases hfound with hzero | ⟨u, hu, hnot⟩
      · omega
      · rw [← Array.getElem?_toList] at ht hu
        exact (hnot (hts.behind_of_lt ht hu hni (Or.inl hholds))).elim
  subst heq
  rw [ht] at h
  obtain ⟨side, hside, h⟩ := exists_of_bind_ok h
  rw [if_pos ((Token.side_eq_ok (hts.nonempty t hmem) hside).1.2 hholds)] at h
  exact (Except.ok.inj h).symm

/-- Where no token holds the position, a search ends at the last token. -/
theorem locate_of_not_holds {m : Model} (hts : Orderly m.tokens.toList) {p : Position}
    {found : Option Nat} (h : m.locate p = .ok found) (hnot : ∀ t ∈ m.tokens, ¬ t.Holds p)
    (hsize : 0 < m.tokens.size) : found = some (m.tokens.size - 1) := by
  obtain ⟨n, hn, h⟩ := exists_of_bind_ok h
  obtain ⟨-, hlt, -, -⟩ := narrow_spec hts hsize (by omega) hn
  obtain ⟨t, ht⟩ : ∃ t, m.tokens[n]? = some t := ⟨_, Array.getElem?_eq_getElem (by omega)⟩
  have hmem := Array.mem_of_getElem? ht
  rw [ht] at h
  obtain ⟨side, hside, h⟩ := exists_of_bind_ok h
  have hne := hts.nonempty t (Array.mem_toList_iff.2 hmem)
  rw [if_neg fun heq => hnot t hmem ((Token.side_eq_ok hne hside).1.1 heq)] at h
  exact (Except.ok.inj h).symm

theorem exists_locate {m : Model} {p : Position} (h : ∀ t ∈ m.tokens, ∃ b, t.contains p = .ok b) :
    ∃ found, m.locate p = .ok found := by
  obtain ⟨n, hn⟩ := exists_narrow h 0 m.tokens.size
  rw [locate, hn]
  dsimp only [bind, Except.bind]
  split
  · exact ⟨_, rfl⟩
  · rename_i t ht
    obtain ⟨side, hside⟩ := Token.exists_side (h t (Array.mem_of_getElem? ht))
    rw [hside]
    exact ⟨_, rfl⟩

/-! ### The token to extend -/

/-- The token that typing extends is the located one or the one before it. -/
theorem locatePrevious_eq {m : Model} {p : Position} {i : Nat} {t : Token}
    (h : m.locate p = .ok (some i)) (ht : m.tokens[i]? = some t) :
    m.locatePrevious p = .ok (some (if t.kind.isComment || t.kind.isQuoted then i
      else if i + 1 = m.tokens.size ∧ t.kind ≠ .whitespace then i else i - 1)) := by
  rw [locatePrevious, h]
  dsimp only [bind, Except.bind]
  rw [ht]
  dsimp only
  split
  · rfl
  · split
    · rfl
    · rfl

theorem anchor_eq {m : Model} {p : Position} {i : Nat} {t : Token}
    (h : m.locatePrevious p = .ok (some i)) (ht : m.tokens[i]? = some t) :
    m.anchor p = .ok (if t.kind.isOpening ∧ t.start = p then m.tokens[i - 1]? else some t) := by
  rw [anchor, h]
  dsimp only [bind, Except.bind]
  rw [ht]
  dsimp only
  split
  · rfl
  · rfl

theorem exists_locatePrevious {m : Model} {p : Position} {found : Option Nat}
    (h : m.locate p = .ok found) : ∃ found, m.locatePrevious p = .ok found := by
  cases found with
  | none => exact ⟨none, by rw [locatePrevious, h]; rfl⟩
  | some i =>
      cases ht : m.tokens[i]? with
      | none =>
          refine ⟨none, ?_⟩
          rw [locatePrevious, h]
          dsimp only [bind, Except.bind]
          rw [ht]
          rfl
      | some t => exact ⟨_, locatePrevious_eq h ht⟩

/-- Where every token can be compared with a position, a search for the token to extend comes to an
end, and finds one of the tokens or nothing. -/
theorem exists_anchor {m : Model} {p : Position} (h : ∀ t ∈ m.tokens, ∃ b, t.contains p = .ok b) :
    ∃ found, m.anchor p = .ok found ∧ ∀ t ∈ found, t ∈ m.tokens := by
  obtain ⟨located, hlocated⟩ := exists_locate h
  obtain ⟨found, hfound⟩ := exists_locatePrevious hlocated
  cases found with
  | none => exact ⟨none, by rw [anchor, hfound]; rfl, fun t ht => nomatch ht⟩
  | some i =>
      cases ht : m.tokens[i]? with
      | none =>
          refine ⟨none, ?_, fun t ht => nomatch ht⟩
          rw [anchor, hfound]
          dsimp only [bind, Except.bind]
          rw [ht]
          rfl
      | some t =>
          refine ⟨_, anchor_eq hfound ht, ?_⟩
          split
          · exact fun u hu => Array.mem_of_getElem? hu
          · intro u hu
            obtain rfl := Option.mem_some_iff.1 hu
            exact Array.mem_of_getElem? ht

end Model

end RexxService
