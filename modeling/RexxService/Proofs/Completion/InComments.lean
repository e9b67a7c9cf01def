import RexxService.Proofs.Completion.WordEnd

/-!
# Completion inside a comment

Nothing is to be offered inside a comment.  A search looks for the token that holds the cursor on its first
line, so it finds a comment from its first line only.  On the other lines no token holds the cursor, the
search falls back to the end of the text, and names are offered for the word that stands there
(`names_offered_in_comment`).

* **`eq_of_holds_inside`** — inside a token no other token holds a position;
* **`anchor_of_comment`** — a comment that holds the position is the anchor;
* **`OffersNothing`**, **`complete_eq_nil_iff`** — the anchors after which nothing is offered;
* **`completion_in_comment`** — where exactly nothing is offered inside a comment.
-/

namespace RexxService

open RexxService.Text RexxService.Lexeme RexxService.Completion

/-! ### Inside a token -/

theorem Counter.eq_of_add_ok {limit m n k : Nat} (h : add limit m n = .ok k) : k = m + n := by
  rw [add] at h
  split at h
  · exact (Except.ok.inj h).symm
  · cases h

/-- The end of a token, if it can be counted, is the position reached over its text. -/
theorem Token.eq_past_of_positionPast {p q : Position} {cs : List Char}
    (h : positionPast p cs = .ok q) : q = p.past cs := by
  fun_induction Position.past p cs with
  | case1 p => exact (Except.ok.inj h).symm
  | case2 p cs ih =>
      rw [positionPast, if_neg (by simp [breaksLine]), if_pos rfl, positionPast,
        if_pos (by simp [breaksLine])] at h
      obtain ⟨line, hline, h⟩ := exists_of_bind_ok h
      obtain rfl := Counter.eq_of_add_ok hline
      exact ih h
  | case3 p c cs hcrlf hc ih =>
      rw [positionPast, if_pos (breaksLine_of_endsLine hc hcrlf)] at h
      obtain ⟨line, hline, h⟩ := exists_of_bind_ok h
      obtain rfl := Counter.eq_of_add_ok hline
      exact ih h
  | case4 p c cs _ hc ih =>
      have hlf : c ≠ '\n' := fun h => hc (endsLine_iff.2 (Or.inr h))
      have hcr : c ≠ '\r' := fun h => hc (endsLine_iff.2 (Or.inl h))
      rw [positionPast, if_neg (by simp [breaksLine, hlf, hcr]), if_neg hcr] at h
      obtain ⟨column, hcolumn, h⟩ := exists_of_bind_ok h
      obtain rfl := Counter.eq_of_add_ok hcolumn
      exact ih h

section Inside

variable {text : String} {p q : Piece} {place stop : Position}

theorem stop_of_endPosition (hp : p ∈ piecesOf text) (h : p.token.endPosition = .ok stop) :
    stop = p.stop.position := by
  obtain ⟨front, c, rest, -, -, rfl⟩ := mem_pieces hp
  rw [Token.endPosition, Piece.token_text, String.toList_ofList] at h
  rw [Token.eq_past_of_positionPast h]
  exact (Cursor.advance_position _ _ (scan_not_splitsBreak c rest)).symm

/-- Inside a token no other token holds a position: those in front of it stop before it begins, and those
behind it begin where it has stopped. -/
theorem eq_of_holds_inside (hp : p ∈ piecesOf text) (hq : q ∈ piecesOf text)
    (hafter : p.start.position < place) (hbefore : place < p.stop.position)
    (hholds : q.token.Holds place) : q = p := by
  obtain ⟨i, hi⟩ := List.getElem?_of_mem hp
  obtain ⟨j, hj⟩ := List.getElem?_of_mem hq
  rcases Nat.lt_trichotomy j i with hji | rfl | hij
  · have hbehind : place < p.token.start :=
      (orderly_pieces text).behind_of_lt (by rw [List.getElem?_map, hj]; rfl)
        (by rw [List.getElem?_map, hi]; rfl) hji (Or.inl hholds)
    rw [Piece.token_start, Position.lt_iff] at hbehind
    rw [Position.lt_iff] at hafter
    omega
  · exact Option.some.inj (hj.symm.trans hi)
  · have hle : p.stop.position ≤ q.start.position :=
      (Cursor.reaches_of_offset_le (Piece.stop_isPlaceOf hp) (Piece.start_isPlaceOf hq)
        (stop_le_start hi hj hij)).position_le
    exact (hholds.not_behind (Position.lt_of_lt_of_le hbefore hle)).elim

end Inside

/-! ### The anchor inside a comment -/

namespace Model

variable {m : Model} {place : Position} {i : Nat} {t : Token}

theorem anchor_of_comment (h : m.locate place = .ok (some i)) (ht : m.tokens[i]? = some t)
    (hcomment : t.kind.isComment = true) : m.anchor place = .ok (some t) := by
  have hopening : t.kind.isOpening = false := by
    revert hcomment
    cases t.kind <;> decide
  have hprevious := locatePrevious_eq h ht
  rw [hcomment, Bool.true_or, if_pos rfl] at hprevious
  rw [anchor_eq hprevious ht, hopening, if_neg fun h => Bool.false_ne_true h.1]

end Model

/-! ### Anchors after which nothing is offered -/

namespace Completion

/-- Nothing is offered after a token: it is a comment; or every name would be offered after it, and there
are none; or no name is on offer for its text. -/
def OffersNothing (m : Model) (mode : Matching) (t : Token) : Prop :=
  t.kind.isComment = true ∨
    if t.kind.isOpening then m.vars = [] ∧ m.labels = []
    else ∀ item, ¬ OnOffer m mode t.text item

variable {m : Model} {mode : Matching}

/-- Before anything is typed, only a text without names has nothing to offer. -/
theorem offered_unrestricted_eq_nil_iff {range : Span} (hvars : ∀ v ∈ m.vars, v.text ≠ "") :
    Prompt.offered ⟨"", true, range⟩ m mode = [] ↔ m.vars = [] ∧ m.labels = [] := by
  constructor
  · intro h
    have hnone (item : Item) : item ∉ Prompt.offered ⟨"", true, range⟩ m mode := by
      rw [h]
      exact List.not_mem_nil
    constructor
    · refine List.eq_nil_iff_forall_not_mem.2 fun v hv => hnone ⟨.var, v.text, range⟩ ?_
      have hlength : 0 < v.text.length := by
        rw [← String.length_toList, List.length_pos_iff]
        exact fun hnil => hvars v hv (String.toList_injective hnil)
      exact Prompt.mem_offered.2
        ⟨rfl, ((Prompt.listsSteps_variableNames _ mode m.vars).mem_iff _).2
          ⟨hlength, v, hv, rfl, Or.inl rfl⟩⟩
    · refine List.eq_nil_iff_forall_not_mem.2 fun l hl => hnone ⟨.label, l.text, range⟩ ?_
      exact Prompt.mem_offered.2
        ⟨rfl, List.mem_filter.2 ⟨List.mem_map_of_mem hl, rfl⟩⟩
  · rintro ⟨hv, hl⟩
    rw [Prompt.offered, hv, hl]
    rfl

theorem offered_eq_nil_iff {typed : String} {range : Span} (h : typed ≠ "") :
    Prompt.offered ⟨typed, false, range⟩ m mode = [] ↔ ∀ item, ¬ OnOffer m mode typed item := by
  rw [List.eq_nil_iff_forall_not_mem]
  constructor
  · intro hnone item hitem
    exact hnone ⟨item.kind, item.name, range⟩ ((mem_offered_iff h).2 ⟨rfl, hitem⟩)
  · intro hnone item hitem
    exact hnone item ((mem_offered_iff h).1 hitem).2

end Completion

namespace Model

theorem complete_eq_nil_iff {m : Model} {place : Position} {mode : Matching} {t : Token}
    {items : List Item} (hanchor : m.anchor place = .ok (some t)) (htext : t.text ≠ "")
    (hvars : ∀ v ∈ m.vars, v.text ≠ "") (h : m.complete .fresh place mode = .ok items) :
    items = [] ↔ OffersNothing m mode t := by
  cases hcomment : t.kind.isComment with
  | true =>
      rw [complete_of_comment hanchor hcomment] at h
      obtain rfl := Except.ok.inj h
      exact iff_of_true rfl (Or.inl hcomment)
  | false =>
  rw [OffersNothing, hcomment, or_iff_right Bool.false_ne_true]
  cases hopening : t.kind.isOpening with
  | true =>
      rw [complete_of_prompt hanchor hcomment (promptAt_of_opening hopening)] at h
      obtain rfl := Except.ok.inj h
      exact offered_unrestricted_eq_nil_iff hvars
  | false =>
      rcases exists_promptAt t place with ⟨range, hprompt⟩ | ⟨cause, -, hprompt⟩
      · rw [hopening] at hprompt
        rw [complete_of_prompt hanchor hcomment hprompt] at h
        obtain rfl := Except.ok.inj h
        exact offered_eq_nil_iff htext
      · rw [complete_of_prompt_error hanchor hcomment hprompt] at h
        cases h

theorem exists_locate_of_complete {m : Model} {state : Freshness} {place : Position} {mode : Matching}
    {items : List Item} (h : m.complete state place mode = .ok items) :
    ∃ found, m.locate place = .ok found := by
  cases hlocate : m.locate place with
  | ok found => exact ⟨found, rfl⟩
  | error cause =>
      rw [complete, anchor, locatePrevious, hlocate] at h
      cases h

end Model

/-- **Where nothing is offered inside a comment.**  Take any text, any comment in it, any mode and any
position after the beginning and before the end of the comment.  Nothing is offered there if and only if the
position is on the first line of the comment, not past as many columns as the whole comment has units, or
nothing is offered after the last token of the text (the one in front of it, if the last is blank).  Only in
a text of more units than can be counted, completion may fail instead. -/
theorem completion_in_comment (uri text : String) (mode : Matching) {t : Token}
    (ht : t ∈ (Model.parse uri text).tokens) (hcomment : t.kind.isComment = true)
    {place stop : Position} (hstop : t.endPosition = .ok stop) (hafter : t.start < place)
    (hbefore : place < stop) :
    let m := Model.parse uri text
    (∃ items, m.complete .fresh place mode = .ok items ∧
      (items = [] ↔ t.Holds place ∨ ∃ last ∈ m.lastAnchor, OffersNothing m mode last)) ∨
    (Counter.placeLimit ≤ units text.toList ∧
      ∃ failure, m.complete .fresh place mode = .error failure) := by
  intro m
  obtain ⟨p, hp, rfl⟩ := Model.token_of_mem_tokens ht
  obtain rfl := stop_of_endPosition hp hstop
  cases hcomplete : m.complete .fresh place mode with
  | error failure =>
      refine Or.inr ⟨Nat.not_lt.1 fun hunits => ?_, failure, rfl⟩
      obtain ⟨items, hitems, -⟩ := Model.complete_name_text hunits place mode
      cases hitems.symm.trans hcomplete
  | ok items =>
  refine Or.inl ⟨items, rfl, ?_⟩
  obtain ⟨found, hlocate⟩ := Model.exists_locate_of_complete hcomplete
  by_cases hholds : p.token.Holds place
  · obtain ⟨i, hi⟩ := List.getElem?_of_mem hp
    rw [Model.located_of_holds hlocate hi hholds] at hlocate
    have hanchor := Model.anchor_of_comment hlocate (by rw [Model.getElem?_parse, hi]; rfl) hcomment
    rw [Model.complete_of_comment hanchor hcomment] at hcomplete
    exact iff_of_true (Except.ok.inj hcomplete).symm (Or.inl hholds)
  · have hnone : ∀ u ∈ m.tokens, ¬ u.Holds place := by
      intro u hu huholds
      obtain ⟨q, hq, rfl⟩ := Model.token_of_mem_tokens hu
      obtain rfl := eq_of_holds_inside hp hq hafter hbefore huholds
      exact hholds huholds
    have hsize : 0 < m.tokens.size := Array.size_pos_of_mem ht
    have hanchor := Model.anchor_of_not_holds (Model.orderly_parse uri text) hlocate hnone hsize
    obtain ⟨last, hmem, hlast⟩ := Model.exists_lastAnchor hsize
    rw [hlast] at hanchor
    have htext {u : Token} (h : ∃ q ∈ piecesOf text, u = q.token) : u.text ≠ "" := by
      obtain ⟨q, hq, rfl⟩ := h
      exact Piece.token_text_ne_empty hq
    rw [Model.complete_eq_nil_iff hanchor (htext (Model.token_of_mem_tokens hmem))
      (fun v hv => htext (Model.token_of_mem_vars hv)) hcomplete, or_iff_right hholds, hlast]
    refine ⟨fun h => ⟨last, rfl, h⟩, ?_⟩
    rintro ⟨u, hu, h⟩
    obtain rfl := Option.some.inj hu
    exact h

/-- On the second line of a comment nothing is offered if only blanks follow the comment. -/
theorem completion_in_comment_at_end :
    let m := Model.parse "a" "ad /*\nad */ "
    let t : Token := ⟨.comment, "/*\nad */", 0, 3, 3, 11⟩
    t ∈ m.tokens ∧ t.endPosition = .ok ⟨1, 5⟩ ∧ ¬ t.Holds ⟨1, 2⟩ ∧
      m.complete .fresh ⟨1, 2⟩ .caseInsensitive = .ok [] := by
  intro m t
  have ht : t ∈ m.tokens := by decide +kernel
  have hstop : t.endPosition = .ok ⟨1, 5⟩ := eq_ok_of_toOption (by decide +kernel)
  have hlast : m.lastAnchor = some t := by decide +kernel
  refine ⟨ht, hstop, by decide, ?_⟩
  have hafter : t.start < ⟨1, 2⟩ := by decide
  rcases completion_in_comment "a" "ad /*\nad */ " .caseInsensitive ht rfl hstop hafter (by decide) with
    ⟨items, hitems, hiff⟩ | ⟨hlong, -⟩
  · obtain rfl := hiff.2 (Or.inr ⟨t, hlast, Or.inl rfl⟩)
    exact hitems
  · exact absurd hlong (by decide)

/-- Inside a comment, names are offered all the same: on the second line of the comment, for the word that
ends the text. -/
theorem names_offered_in_comment :
    ¬ ∀ (uri text : String) (mode : Matching) (t : Token) (place stop : Position),
      t ∈ (Model.parse uri text).tokens → t.kind.isComment = true → t.endPosition = .ok stop →
      t.start < place → place < stop →
      (Model.parse uri text).complete .fresh place mode = .ok [] := by
  intro hall
  have ht : (⟨.comment, "/*\n*/", 0, 0, 0, 5⟩ : Token) ∈ (Model.parse "a" "/*\n*/ ad").tokens := by
    decide +kernel
  have hstop : Token.endPosition ⟨.comment, "/*\n*/", 0, 0, 0, 5⟩ = .ok ⟨1, 2⟩ :=
    eq_ok_of_toOption (by decide +kernel)
  have hcomplete : (Model.parse "a" "/*\n*/ ad").complete .fresh ⟨1, 0⟩ .caseInsensitive
      = .ok [⟨.function, "address", ⟨⟨1, 3⟩, ⟨1, 5⟩⟩⟩, ⟨.keyword, "address", ⟨⟨1, 3⟩, ⟨1, 5⟩⟩⟩] :=
    eq_ok_of_toOption (by decide +kernel)
  have hnone := hall "a" "/*\n*/ ad" .caseInsensitive _ ⟨1, 0⟩ _ ht rfl hstop (by decide) (by decide)
  cases hnone.symm.trans hcomplete

end RexxService
