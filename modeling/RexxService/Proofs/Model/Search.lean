import Mathlib.Data.List.Chain
import RexxService.Proofs.Model.Ranges

/-!
# Halving and asking every token

A token is found by halving, but what is found can be said without it: it is what asking every token in
turn would find.  Only neighbours have to be compared to know that tokens stand in order.

* **`Spaced`** — tokens that are not empty, begin one after the other, and leave room for each other;
* **`orderly_of_spaced`**, **`spaced_of_orderly`** — comparing neighbours is enough;
* **`Orderly.exists_contains`** — if the last token up to a position can be asked, so can all others;
* **`Model.contains_of_locate`**, **`Model.error_of_locate`** — a search ends exactly if every token can be
  asked;
* **`halving_finds_the_holder`** — halving finds what asking every token finds.
-/

namespace RexxService

open RexxService.Text

/-! ### Neighbouring tokens -/

/-- Tokens that are not empty and begin one after the other, where on one line each ends before its
neighbour begins. -/
structure Spaced (ts : List Token) : Prop where
  nonempty : ∀ t ∈ ts, t.offset < t.endOffset
  ascending : ts.Pairwise fun t u => t.start < u.start
  apart : ts.IsChain fun t u => t.line = u.line → t.column + (t.endOffset - t.offset) ≤ u.column

theorem Token.Precedes.trans {t u v : Token} (htu : t.Precedes u) (huv : u.Precedes v) :
    t.Precedes v := by
  rw [Token.Precedes] at *
  omega

instance : Trans Token.Precedes Token.Precedes Token.Precedes := ⟨Token.Precedes.trans⟩

/-- Tokens that are spaced from their neighbours are so from all tokens. -/
theorem orderly_of_spaced {ts : List Token} (h : Spaced ts) : Orderly ts where
  nonempty := h.nonempty
  precedes := by
    rw [← List.isChain_iff_pairwise, List.isChain_iff_getElem]
    intro i hi
    have hstart := List.isChain_iff_getElem.1 h.ascending.isChain i hi
    have hroom := List.isChain_iff_getElem.1 h.apart i hi
    rw [Position.lt_iff] at hstart
    simp only [Token.start] at hstart
    rw [Token.Precedes]
    omega

theorem spaced_of_orderly {ts : List Token} (h : Orderly ts) : Spaced ts where
  nonempty := h.nonempty
  ascending := by
    apply h.precedes.imp_of_mem
    intro t u ht hu htu
    have hne := h.nonempty t ht
    rw [Token.Precedes] at htu
    rw [Position.lt_iff]
    simp only [Token.start]
    omega
  apart := by
    apply h.precedes.isChain.imp
    intro t u htu hline
    rw [Token.Precedes] at htu
    omega

/-! ### Asking a token -/

/-- What a token that is not empty answers: it fails at positions on its line, from its beginning on, if
its end cannot be counted. -/
theorem Token.contains_eq {t : Token} (hne : t.offset < t.endOffset) (p : Position) :
    t.contains p =
      if t.line = p.line ∧ t.column ≤ p.column ∧
        Counter.offsetLimit ≤ t.column + (t.endOffset - t.offset) then .error .addition
      else .ok (decide (t.Holds p)) := by
  by_cases hstart : t.line = p.line ∧ t.column ≤ p.column
  · rw [contains, if_pos hstart, length, Counter.sub_eq_ok hne.le]
    dsimp only [bind, Except.bind]
    by_cases hlimit : Counter.offsetLimit ≤ t.column + (t.endOffset - t.offset)
    · rw [if_pos ⟨hstart.1, hstart.2, hlimit⟩, Counter.add, if_neg (by omega)]
    · rw [if_neg (by omega), Counter.add_eq_ok (by omega)]
      simp [Holds, hstart, pure, Except.pure]
  · have hholds : ¬ t.Holds p := fun h => hstart ⟨h.1, h.2.1⟩
    rw [contains, if_neg hstart, if_neg (by omega), decide_eq_false hholds]
    rfl

theorem Token.lt_start_iff {t : Token} {p : Position} :
    p < t.start ↔ p.line < t.line ∨ p.line = t.line ∧ p.column < t.column := Position.lt_iff

/-- A token behind a position answers. -/
theorem Token.exists_contains_of_behind {t : Token} (hne : t.offset < t.endOffset) {p : Position}
    (h : p < t.start) : ∃ b, t.contains p = .ok b := by
  rw [lt_start_iff] at h
  rw [contains_eq hne, if_neg (by omega)]
  exact ⟨_, rfl⟩

/-- A token in front of one that does not lie behind a position answers if that one does. -/
theorem Token.exists_contains_of_precedes {t u : Token} (ht : t.offset < t.endOffset)
    (hu : u.offset < u.endOffset) (htu : t.Precedes u) {p : Position} (hp : ¬ p < u.start)
    (h : ∃ b, u.contains p = .ok b) : ∃ b, t.contains p = .ok b := by
  obtain ⟨b, hb⟩ := h
  rw [contains_eq hu] at hb
  rw [contains_eq ht]
  split at hb
  · cases hb
  · rename_i hlimit
    rw [lt_start_iff] at hp
    rw [Precedes] at htu
    rw [if_neg (by omega)]
    exact ⟨_, rfl⟩

/-- If the last token that does not lie behind a position answers, all tokens do. -/
theorem Orderly.exists_contains {ts : List Token} (h : Orderly ts) {p : Position} {n : Nat} {t : Token}
    (ht : ts[n]? = some t) (hanswer : ∃ b, t.contains p = .ok b) (hfront : n = 0 ∨ ¬ p < t.start)
    (hback : ∀ i u, n < i → ts[i]? = some u → p < u.start) : ∀ u ∈ ts, ∃ b, u.contains p = .ok b := by
  intro u hu
  obtain ⟨i, hi⟩ := List.mem_iff_getElem?.1 hu
  rcases Nat.lt_trichotomy i n with hin | rfl | hin
  · exact Token.exists_contains_of_precedes (h.nonempty u hu)
      (h.nonempty t (List.mem_of_getElem? ht)) (h.precedes_of_lt hi ht hin)
      (hfront.resolve_left (by omega)) hanswer
  · obtain rfl := Option.some.inj (ht.symm.trans hi)
    exact hanswer
  · exact Token.exists_contains_of_behind (h.nonempty u hu) (hback i u hin hi)

/-- At most one token holds a position. -/
theorem Orderly.eq_of_holds {ts : List Token} (h : Orderly ts) {p : Position} {i j : Nat} {t u : Token}
    (hi : ts[i]? = some t) (hj : ts[j]? = some u) (ht : t.Holds p) (hu : u.Holds p) : i = j := by
  rcases Nat.lt_trichotomy i j with hij | hij | hij
  · exact (hu.not_behind (h.behind_of_lt hi hj hij (Or.inl ht))).elim
  · exact hij
  · exact (ht.not_behind (h.behind_of_lt hj hi hij (Or.inl hu))).elim

/-! ### When a search comes to an end -/

theorem exists_of_bind_error {ε α β : Type} {x : Except ε α} {f : α → Except ε β} {e : ε}
    (h : x >>= f = .error e) : x = .error e ∨ ∃ a, x = .ok a ∧ f a = .error e := by
  cases x with
  | error e' =>
      cases h
      exact Or.inl rfl
  | ok a => exact Or.inr ⟨a, rfl, h⟩

/-- A comparison fails only because the token cannot answer. -/
theorem Token.contains_of_side_error {t : Token} {p : Position} {e : Overflow}
    (h : t.side p = .error e) : t.contains p = .error e := by
  rcases exists_of_bind_error h with h | ⟨b, -, h⟩
  · exact h
  · split at h
    · cases h
    · split at h <;> cases h

namespace Model

variable {m : Model} {p : Position}

theorem error_of_narrow {tokens : Array Token} {e : Overflow} {base size : Nat}
    (h : narrow tokens p base size = .error e) : ∃ t ∈ tokens, t.contains p = .error e := by
  fun_induction narrow tokens p base size with
  | case1 base size hle => cases h
  | case2 base size hle hnone => cases h
  | case3 base size hle t ht ih =>
      rcases exists_of_bind_error h with h | ⟨side, hside, h⟩
      · exact ⟨t, Array.mem_of_getElem? ht, Token.contains_of_side_error h⟩
      · have hrest := ih side
        rw [dite_eq_ite] at hrest
        exact hrest h

/-- A search fails only because some token cannot answer. -/
theorem error_of_locate {e : Overflow} (h : m.locate p = .error e) :
    ∃ t ∈ m.tokens, t.contains p = .error e := by
  rcases exists_of_bind_error h with h | ⟨n, -, h⟩
  · exact error_of_narrow h
  · split at h
    · cases h
    · rename_i t ht
      rcases exists_of_bind_error h with h | ⟨side, -, h⟩
      · exact ⟨t, Array.mem_of_getElem? ht, Token.contains_of_side_error h⟩
      · cases h

/-- If a search comes to an end, every token can answer. -/
theorem contains_of_locate (hts : Orderly m.tokens.toList) {found : Option Nat}
    (h : m.locate p = .ok found) : ∀ t ∈ m.tokens.toList, ∃ b, t.contains p = .ok b := by
  obtain ⟨n, hn, h⟩ := exists_of_bind_ok h
  rcases Nat.eq_zero_or_pos m.tokens.size with hsize | hsize
  · simp [Array.size_eq_zero_iff.1 hsize]
  -- The token that halving ends at is asked last; the ones after it lie behind the position.
  obtain ⟨-, hlt, hback, hfront⟩ := narrow_spec hts hsize (by omega) hn
  obtain ⟨t, ht⟩ : ∃ t, m.tokens[n]? = some t := ⟨_, Array.getElem?_eq_getElem (by omega)⟩
  rw [ht] at h
  obtain ⟨side, hside, -⟩ := exists_of_bind_ok h
  obtain ⟨b, hb, -⟩ := exists_of_bind_ok hside
  refine hts.exists_contains (by simpa using ht) ⟨b, hb⟩ ?_ ?_
  · apply hfront.imp_right
    intro ⟨u, hu, hnot⟩
    obtain rfl := Option.some.inj (ht.symm.trans hu)
    exact hnot
  · intro i u hni hu
    have hi := (List.getElem?_eq_some_iff.1 hu).1
    exact hback i u hni (by simpa using hi) (by simpa using hu)

/-! ### What a search finds -/

theorem locate_eq_none_iff (hts : Orderly m.tokens.toList) :
    m.locate p = .ok none ↔ m.tokens = #[] := by
  constructor
  · intro h
    by_contra hne
    have hsize : 0 < m.tokens.size := Array.size_pos_iff.2 hne
    by_cases hholds : ∃ t ∈ m.tokens, t.Holds p
    · obtain ⟨t, ht, hholds⟩ := hholds
      obtain ⟨i, hi⟩ := Array.mem_iff_getElem?.1 ht
      cases locate_of_holds hts h hi hholds
    · cases locate_of_not_holds hts h (by simpa using hholds) hsize
  · intro h
    rw [locate, h, narrow]
    rfl

/-- The token that says it contains the position is found. -/
theorem locate_of_contains (hts : Orderly m.tokens.toList) {i : Nat} {t : Token}
    (ht : m.tokens[i]? = some t) (hcontains : t.contains p = .ok true) :
    m.locate p = .ok (some i) := by
  have hholds : t.Holds p := of_decide_eq_true (Token.contains_eq_ok hcontains).symm
  have hlist : m.tokens.toList[i]? = some t := by simpa using ht
  have hanswers := hts.exists_contains hlist ⟨_, hcontains⟩ (Or.inr hholds.not_behind)
    fun j u hij hu => hts.behind_of_lt hlist hu hij (Or.inl hholds)
  obtain ⟨found, hfound⟩ := exists_locate fun t ht => hanswers t (Array.mem_toList_iff.2 ht)
  rw [hfound, locate_of_holds hts hfound ht hholds]

/-- If all tokens say that they do not contain the position, the last one is found. -/
theorem locate_of_not_contains (hts : Orderly m.tokens.toList) (hne : m.tokens ≠ #[])
    (hcontains : ∀ t ∈ m.tokens, t.contains p = .ok false) :
    m.locate p = .ok (some (m.tokens.size - 1)) := by
  have hnot : ∀ t ∈ m.tokens, ¬ t.Holds p := fun t ht =>
    of_decide_eq_false (Token.contains_eq_ok (hcontains t ht)).symm
  obtain ⟨found, hfound⟩ := exists_locate fun t ht => ⟨_, hcontains t ht⟩
  rw [hfound, locate_of_not_holds hts hfound hnot (Array.size_pos_iff.2 hne)]

/-- If a token cannot answer, the search fails as it does. -/
theorem locate_of_contains_error (hts : Orderly m.tokens.toList) {t : Token} (ht : t ∈ m.tokens)
    {e : Overflow} (he : t.contains p = .error e) : m.locate p = .error e := by
  -- There is one way to fail, so any token that cannot answer fails in this way.
  have hcause : ∀ u ∈ m.tokens, ∀ e', u.contains p = .error e' → e' = .addition := by
    intro u hu e' he'
    rw [Token.contains_eq (hts.nonempty u (Array.mem_toList_iff.2 hu))] at he'
    split at he'
    · exact (Except.error.inj he').symm
    · cases he'
  cases hlocate : m.locate p with
  | ok found =>
      obtain ⟨b, hb⟩ := contains_of_locate hts hlocate t (Array.mem_toList_iff.2 ht)
      rw [he] at hb
      cases hb
  | error e' =>
      obtain ⟨u, hu, hu'⟩ := error_of_locate hlocate
      rw [hcause u hu e' hu', hcause t ht e he]

end Model

/-- **Halving finds what asking every token finds.**  For tokens that are not empty, begin one after the
other and leave room for each other, and for every position: nothing is found exactly if there are no
tokens; at most one token contains the position, and then this one is found; if all answer that they do
not contain it, the last one is found; and if a token cannot answer, because its end cannot be counted,
the search fails as it does.  The tokens of a text of fewer than `2 ^ 32` units are of this form, and all
of them can answer. -/
theorem halving_finds_the_holder :
    (∀ (m : Model) (p : Position), Spaced m.tokens.toList →
      (m.locate p = .ok none ↔ m.tokens = #[]) ∧
      (∀ (i j : Nat) (t u : Token), m.tokens[i]? = some t → m.tokens[j]? = some u →
        t.contains p = .ok true → u.contains p = .ok true → i = j) ∧
      (∀ (i : Nat) (t : Token), m.tokens[i]? = some t → t.contains p = .ok true →
        m.locate p = .ok (some i)) ∧
      (m.tokens ≠ #[] → (∀ t ∈ m.tokens, t.contains p = .ok false) →
        m.locate p = .ok (some (m.tokens.size - 1))) ∧
      ∀ t ∈ m.tokens, ∀ e, t.contains p = .error e → m.locate p = .error e) ∧
    ∀ uri text, units text.toList < Counter.placeLimit →
      Spaced (Model.parse uri text).tokens.toList ∧
        ∀ t ∈ (Model.parse uri text).tokens, ∀ p, ∃ b, t.contains p = .ok b := by
  constructor
  · intro m p hspaced
    have hts := orderly_of_spaced hspaced
    refine ⟨Model.locate_eq_none_iff hts, ?_, fun i t => Model.locate_of_contains hts,
      Model.locate_of_not_contains hts, fun t ht e => Model.locate_of_contains_error hts ht⟩
    intro i j t u hi hj ht hu
    exact hts.eq_of_holds (by simpa using hi) (by simpa using hj)
      (of_decide_eq_true (Token.contains_eq_ok ht).symm)
      (of_decide_eq_true (Token.contains_eq_ok hu).symm)
  · intro uri text hunits
    refine ⟨spaced_of_orderly (Model.orderly_parse uri text), ?_⟩
    intro t ht p
    obtain ⟨q, hq, rfl⟩ := Model.token_of_mem_tokens ht
    exact exists_contains_token hunits hq p

/-- A comment of two lines is found past the end of its first line; on its second line, where no token
begins before the last one, the last one is. -/
theorem halving_finds_the_holder_comment :
    let m := Model.parse "a" "x /* a\n b */ y"
    units "x /* a\n b */ y".toList < Counter.placeLimit ∧ Spaced m.tokens.toList ∧
      m.locate ⟨0, 10⟩ = .ok (some 2) ∧ m.locate ⟨1, 1⟩ = .ok (some 4) := by
  intro m
  have hunits : units "x /* a\n b */ y".toList < Counter.placeLimit := by decide
  have htokens : m.tokens = #[⟨.identifier, "x", 0, 0, 0, 1⟩, ⟨.whitespace, " ", 0, 1, 1, 2⟩,
      ⟨.comment, "/* a\n b */", 0, 2, 2, 12⟩, ⟨.whitespace, " ", 1, 5, 12, 13⟩,
      ⟨.identifier, "y", 1, 6, 13, 14⟩] := by decide +kernel
  obtain ⟨hspaced, -⟩ := halving_finds_the_holder.2 "a" "x /* a\n b */ y" hunits
  obtain ⟨-, -, hfound, -, -⟩ := halving_finds_the_holder.1 m ⟨0, 10⟩ hspaced
  obtain ⟨-, -, -, hlast, -⟩ := halving_finds_the_holder.1 m ⟨1, 1⟩ hspaced
  refine ⟨hunits, hspaced, ?_, ?_⟩
  · rw [htokens] at hfound
    exact hfound 2 _ rfl rfl
  · rw [htokens] at hlast
    exact hlast (by simp) (by simp; decide)

/-- A token may hold a position and not be found there: where its end cannot be counted, the search
fails. -/
theorem not_every_holder_is_found :
    let t : Token := ⟨.identifier, "x", 0, 1, 0, Counter.offsetLimit - 1⟩
    let m : Model := ⟨"m", #[t], [], [], []⟩
    Spaced m.tokens.toList ∧ t.Holds ⟨0, 1⟩ ∧ m.locate ⟨0, 1⟩ = .error .addition := by
  intro t m
  have hspaced : Spaced m.tokens.toList := ⟨by decide, by simp [m], by simp [m]⟩
  have hcontains : t.contains ⟨0, 1⟩ = .error .addition := by
    rw [Token.contains_eq (by decide), if_pos (by decide)]
  refine ⟨hspaced, by decide, ?_⟩
  exact Model.locate_of_contains_error (orderly_of_spaced hspaced) (Array.mem_singleton.2 rfl)
    hcontains

end RexxService
