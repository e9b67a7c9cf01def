import RexxService.Proofs.Model.Ranges

/-!
# What completion replaces

Completion replaces its anchor, and the anchor need not be at the cursor.  In the middle of a word, it
is the token before the word, and where no token holds the cursor on its first line, it is one of the
last two tokens of the text.  So there are places where completion replaces text on another line
(`not_all_replacements_touch`).

* **`InReach`** — the places of a text where the text replaced is around the cursor;
* **`Anchored`**, **`anchored`** — the four ways in which an anchor is found;
* **`replacement_touches_iff`** — text is replaced around the cursor at these places, and only there.
-/

namespace RexxService

open RexxService.Text RexxService.Lexeme RexxService.Completion

/-! ### Pieces and places -/

section Pieces

variable {text : String} {k : Cursor} {p q : Piece} {i : Nat}

/-- A token holds the places inside it that are on its first line. -/
theorem holds_iff (hk : k.IsPlaceOf text) (hp : p ∈ piecesOf text) :
    p.token.Holds k.position ↔ p.start.offset ≤ k.offset ∧ k.offset < p.stop.offset ∧
      p.start.position.line = k.position.line := by
  show (p.start.position.line = k.position.line ∧ p.start.position.column ≤ k.position.column ∧
    k.position.column < p.start.position.column + (p.stop.offset - p.start.offset)) ↔ _
  have hstart := Piece.start_lt_stop hp
  by_cases hle : p.start.offset ≤ k.offset
  · have hreaches := (Cursor.reaches_of_offset_le (Piece.start_isPlaceOf hp) hk hle).position
    omega
  · have hreaches := (Cursor.reaches_of_offset_le hk (Piece.start_isPlaceOf hp) (by omega)).position
    omega

/-- A token holds the place where it begins. -/
theorem holds_of_start (hk : k.IsPlaceOf text) (hp : p ∈ piecesOf text)
    (h : p.start.offset = k.offset) : p.token.Holds k.position := by
  have hstart := Piece.start_lt_stop hp
  have hfrom := (Cursor.reaches_of_offset_le (Piece.start_isPlaceOf hp) hk h.le).position
  have hto := (Cursor.reaches_of_offset_le hk (Piece.start_isPlaceOf hp) h.ge).position
  exact (holds_iff hk hp).2 ⟨h.le, by omega, by omega⟩

/-- A token on one line holds the places inside it. -/
theorem holds_of_onLine (hk : k.IsPlaceOf text) (hp : p ∈ piecesOf text)
    (honLine : OnLine p.lexeme.text) (hstart : p.start.offset ≤ k.offset)
    (hstop : k.offset < p.stop.offset) : p.token.Holds k.position := by
  refine (holds_iff hk hp).2 ⟨hstart, hstop, ?_⟩
  have hline : p.stop.position.line = p.start.position.line := by rw [stop_of_onLine honLine]; rfl
  have hfrom := (Cursor.reaches_of_offset_le (Piece.start_isPlaceOf hp) hk hstart).position
  have hto := (Cursor.reaches_of_offset_le hk (Piece.stop_isPlaceOf hp) hstop.le).position
  omega

theorem start_eq_stop (hp : (piecesOf text)[i]? = some p) (hq : (piecesOf text)[i + 1]? = some q) :
    q.start = p.stop := by
  obtain ⟨hi, rfl⟩ := List.getElem?_eq_some_iff.1 hp
  obtain ⟨hj, rfl⟩ := List.getElem?_eq_some_iff.1 hq
  exact (isChain_pieces _ _).getElem i hj

/-- Only one piece is at an offset. -/
theorem eq_of_around (hp : p ∈ piecesOf text) (hq : q ∈ piecesOf text) {offset : Nat}
    (hpstart : p.start.offset ≤ offset) (hpstop : offset < p.stop.offset)
    (hqstart : q.start.offset ≤ offset) (hqstop : offset < q.stop.offset) : p = q := by
  obtain ⟨i, hi⟩ := List.getElem?_of_mem hp
  obtain ⟨j, hj⟩ := List.getElem?_of_mem hq
  rcases Nat.lt_trichotomy i j with hij | rfl | hji
  · have hle := stop_le_start hi hj hij
    omega
  · exact Option.some.inj (hi.symm.trans hj)
  · have hle := stop_le_start hj hi hji
    omega

end Pieces

/-! ### The anchor -/

namespace Model

/-- What a search for the anchor has gone through. -/
theorem exists_located {m : Model} {p : Position} {t : Token} (h : m.anchor p = .ok (some t)) :
    ∃ i u j v, m.locate p = .ok (some i) ∧ m.tokens[i]? = some u ∧
      j = (if u.kind.isComment || u.kind.isQuoted then i
        else if i + 1 = m.tokens.size ∧ u.kind ≠ .whitespace then i else i - 1) ∧
      m.tokens[j]? = some v ∧
      (if v.kind.isOpening ∧ v.start = p then m.tokens[j - 1]? else some v) = some t := by
  obtain ⟨previous, hprevious, hanchor⟩ := exists_of_bind_ok h
  cases previous with
  | none => cases hanchor
  | some j =>
  obtain ⟨located, hlocated, hstep⟩ := exists_of_bind_ok hprevious
  cases located with
  | none => cases hstep
  | some i =>
  cases hu : m.tokens[i]? with
  | none =>
      dsimp only at hstep
      rw [hu] at hstep
      cases hstep
  | some u =>
  cases hv : m.tokens[j]? with
  | none =>
      dsimp only at hanchor
      rw [hv] at hanchor
      cases hanchor
  | some v =>
      have hj := Option.some.inj (Except.ok.inj (hprevious.symm.trans (locatePrevious_eq hlocated hu)))
      exact ⟨i, u, j, v, hlocated, hu, hj, hv,
        Except.ok.inj ((anchor_eq hprevious hv).symm.trans h)⟩

theorem getElem?_parse (uri text : String) (i : Nat) :
    (parse uri text).tokens[i]? = ((piecesOf text)[i]?).map Piece.token := by
  rw [← Array.getElem?_toList, parse_tokens, List.getElem?_map]

theorem size_parse (uri text : String) : (parse uri text).tokens.size = (piecesOf text).length := by
  rw [← Array.length_toList, parse_tokens, List.length_map]

/-- How the anchor at a place is found. -/
inductive Anchored (ps : List Piece) (k : Cursor) (t : Token) : Prop where
  /-- It holds the place. -/
  | here {i : Nat} {p : Piece} (hp : ps[i]? = some p) (ht : t = p.token)
      (hholds : p.token.Holds k.position)
      (hkind : i = 0 ∨ (i + 1 = ps.length ∧ p.token.kind ≠ .whitespace) ∨
        p.token.kind.isQuoted = true)
  /-- It is in front of the token that holds the place. -/
  | before {i : Nat} {p q : Piece} (hp : ps[i]? = some p) (hq : ps[i + 1]? = some q) (ht : t = p.token)
      (hholds : q.token.Holds k.position) (hquoted : q.token.kind.isQuoted = false)
      (hlast : i + 2 = ps.length → q.token.kind ≠ .whitespace → q.start.offset = k.offset)
  /-- No token holds the place, and it is the last token. -/
  | last {p : Piece} (hp : ps[ps.length - 1]? = some p) (ht : t = p.token)
      (hblank : p.token.kind ≠ .whitespace) (hnone : ∀ q ∈ ps, ¬ q.token.Holds k.position)
  /-- No token holds the place, and it is in front of the blanks that end the text. -/
  | beforeBlanks {i : Nat} {p q : Piece} (hp : ps[i]? = some p) (hq : ps[i + 1]? = some q)
      (hlast : i + 2 = ps.length) (ht : t = p.token) (hblank : q.token.kind = .whitespace)
      (hnone : ∀ q ∈ ps, ¬ q.token.Holds k.position)

theorem not_quoted_of_opening {kind : Token.Kind} (h : kind.isOpening = true) :
    kind.isQuoted = false := by
  revert h
  cases kind <;> decide

theorem located_of_holds {uri text : String} {p : Position} {found : Option Nat} {i : Nat} {q : Piece}
    (h : (parse uri text).locate p = .ok found) (hq : (piecesOf text)[i]? = some q)
    (hholds : q.token.Holds p) : found = some i :=
  locate_of_holds (orderly_parse uri text) h (by rw [getElem?_parse, hq]; rfl) hholds

theorem located_of_not_holds {uri text : String} {p : Position} {i : Nat}
    (h : (parse uri text).locate p = .ok (some i)) (hi : i < (piecesOf text).length)
    (hnone : ∀ q ∈ piecesOf text, ¬ q.token.Holds p) : i + 1 = (piecesOf text).length := by
  have hsize := size_parse uri text
  have hlast := locate_of_not_holds (orderly_parse uri text) h (fun t ht => by
    obtain ⟨q, hq, rfl⟩ := token_of_mem_tokens ht
    exact hnone q hq) (by omega)
  have hlast := Option.some.inj hlast
  omega

/-- If the located token holds the place, it is the anchor or the token behind the anchor. -/
theorem anchored_of_holds {ps : List Piece} {k : Cursor} {i j : Nat} {p q : Piece}
    (hp : ps[i]? = some p) (hq : ps[j]? = some q)
    (hj : j = if p.token.kind.isComment || p.token.kind.isQuoted then i
      else if i + 1 = ps.length ∧ p.token.kind ≠ .whitespace then i else i - 1)
    (hcomment : q.token.kind.isComment = false) (hholds : p.token.Holds k.position) :
    Anchored ps k q.token := by
  have hsame (hij : j = i) : q = p := Option.some.inj ((hij ▸ hq).symm.trans hp)
  split at hj
  · rename_i hkind
    obtain rfl := hsame hj
    rw [hcomment, Bool.false_or] at hkind
    exact .here hp rfl hholds (Or.inr (Or.inr hkind))
  rename_i hkind
  split at hj
  · rename_i hlast
    obtain rfl := hsame hj
    exact .here hp rfl hholds (Or.inr (Or.inl hlast))
  rename_i hlast
  cases i with
  | zero =>
      obtain rfl := hsame hj
      exact .here hp rfl hholds (Or.inl rfl)
  | succ i =>
      rw [hj] at hq
      rw [Bool.or_eq_true, not_or, Bool.not_eq_true, Bool.not_eq_true] at hkind
      exact .before hq hp rfl hholds hkind.2 fun hlength hblank => (hlast ⟨hlength, hblank⟩).elim

/-- If no token holds the place, the last token is the anchor, or it is blank and behind the anchor. -/
theorem anchored_of_none {ps : List Piece} {k : Cursor} {i j : Nat} {p q : Piece}
    (hp : ps[i]? = some p) (hq : ps[j]? = some q)
    (hj : j = if p.token.kind.isComment || p.token.kind.isQuoted then i
      else if i + 1 = ps.length ∧ p.token.kind ≠ .whitespace then i else i - 1)
    (hopening : q.token.kind.isOpening = false) (hlength : i + 1 = ps.length)
    (hnone : ∀ q ∈ ps, ¬ q.token.Holds k.position) : Anchored ps k q.token := by
  have hblank := ne_whitespace_of_not_opening hopening
  have hlast (hij : j = i) : Anchored ps k q.token := by
    refine .last ?_ rfl hblank hnone
    rw [← hlength, Nat.add_sub_cancel, ← hij]
    exact hq
  split at hj
  · exact hlast hj
  split at hj
  · exact hlast hj
  rename_i hnot
  have hblanks : p.token.kind = .whitespace := by
    by_contra hkind
    exact hnot ⟨hlength, hkind⟩
  cases i with
  | zero => exact hlast hj
  | succ i =>
      rw [hj] at hq
      exact .beforeBlanks hq hp hlength rfl hblanks hnone

/-- The anchor is found in one of these ways. -/
theorem anchored {uri text : String} {k : Cursor} {t : Token} (hk : k.IsPlaceOf text)
    (h : (parse uri text).anchor k.position = .ok (some t)) (hopening : t.kind.isOpening = false)
    (hcomment : t.kind.isComment = false) : Anchored (piecesOf text) k t := by
  obtain ⟨i, u, j, v, hlocate, hu, hj, hv, ht⟩ := exists_located h
  rw [size_parse] at hj
  rw [getElem?_parse] at hu hv ht
  obtain ⟨p, hp, rfl⟩ := Option.map_eq_some_iff.1 hu
  obtain ⟨q, hq, rfl⟩ := Option.map_eq_some_iff.1 hv
  by_cases hback : q.token.kind.isOpening = true ∧ q.token.start = k.position
  · -- The token begins at the place, and the anchor is the one in front of it.
    rw [if_pos hback] at ht
    obtain ⟨r, hr, rfl⟩ := Option.map_eq_some_iff.1 ht
    have hstart := Piece.start_isPlaceOf (List.mem_of_getElem? hq)
    have hoffset : q.start.offset = k.offset := Cursor.offset_eq_of_position_eq hstart hk hback.2
    have hholds := holds_of_start hk (List.mem_of_getElem? hq) hoffset
    cases j with
    | zero =>
        obtain rfl := Option.some.inj (hq.symm.trans hr)
        rw [hback.1] at hopening
        cases hopening
    | succ j => exact .before hr hq rfl hholds (not_quoted_of_opening hback.1) fun _ _ => hoffset
  rw [if_neg hback] at ht
  obtain rfl := Option.some.inj ht
  by_cases hholds : p.token.Holds k.position
  · exact anchored_of_holds hp hq hj hcomment hholds
  · have hnone : ∀ r ∈ piecesOf text, ¬ r.token.Holds k.position := by
      intro r hr hrholds
      obtain ⟨a, ha⟩ := List.getElem?_of_mem hr
      obtain rfl := Option.some.inj (located_of_holds hlocate ha hrholds)
      obtain rfl := Option.some.inj (ha.symm.trans hp)
      exact hholds hrholds
    have hlength := located_of_not_holds hlocate (List.getElem?_eq_some_iff.1 hp).1 hnone
    exact anchored_of_none hp hq hj hopening hlength hnone

end Model

/-! ### Around the cursor -/

/-- The places of a text where completion replaces the text around the cursor, if it replaces text: a
token begins there; or it is inside a string, inside the first token, or inside or behind the last
one, where blanks and a comment at the front and blanks at the back do not count. -/
inductive InReach (text : String) (k : Cursor) : Prop where
  | begins (t : Token) (ht : t ∈ (tokenize text).1) (hstart : t.offset = k.offset)
  | quoted (t : Token) (ht : t ∈ (tokenize text).1) (hkind : t.kind.isQuoted = true)
      (hstart : t.offset < k.offset) (hstop : k.offset < t.endOffset)
  | first (t : Token) (ht : t ∈ (tokenize text).1.head?) (hkind : t.kind.isTrivia = false)
      (hstop : k.offset < t.endOffset)
  | last (t : Token) (ht : t ∈ (tokenize text).1.getLast?) (hkind : t.kind ≠ .whitespace)
      (hstart : t.offset ≤ k.offset)

section InReach

variable {text : String} {k : Cursor} {p q : Piece} {i : Nat}

theorem not_trivia_of_quoted {kind : Token.Kind} (h : kind.isQuoted = true) :
    kind.isTrivia = false := by
  revert h
  cases kind <;> decide

/-- A token that is not trivia holds every place inside it. -/
theorem holds_of_not_trivia (hk : k.IsPlaceOf text) (hp : p ∈ piecesOf text)
    (h : p.token.kind.isTrivia = false) (hstart : p.start.offset ≤ k.offset)
    (hstop : k.offset < p.stop.offset) : p.token.Holds k.position := by
  obtain ⟨hblank, hcomment⟩ := isTrivia_eq_false_iff.1 h
  exact holds_of_onLine hk hp (onLine_of_kind hp hblank hcomment) hstart hstop

/-- The last piece stops at the end of the text, and no place is behind it. -/
theorem offset_le_stop (hk : k.IsPlaceOf text) (hp : (piecesOf text).getLast? = some p) :
    k.offset ≤ p.stop.offset := by
  obtain ⟨front, back, htext, rfl⟩ := hk
  rw [getLast_pieces hp, Cursor.advance_offset, Cursor.advance_offset, htext, units_append]
  omega

/-- The places in reach, in terms of pieces. -/
theorem inReach_iff : InReach text k ↔
    (∃ p ∈ piecesOf text, p.start.offset = k.offset) ∨
    (∃ p ∈ piecesOf text, p.token.kind.isQuoted = true ∧ p.start.offset < k.offset ∧
      k.offset < p.stop.offset) ∨
    (∃ p, (piecesOf text)[0]? = some p ∧ p.token.kind.isTrivia = false ∧ k.offset < p.stop.offset) ∨
    ∃ p, (piecesOf text).getLast? = some p ∧ p.token.kind ≠ .whitespace ∧
      p.start.offset ≤ k.offset := by
  constructor
  · rintro (⟨t, ht, hstart⟩ | ⟨t, ht, hkind, hstart, hstop⟩ | ⟨t, ht, hkind, hstop⟩ |
      ⟨t, ht, hkind, hstart⟩)
    · rw [tokenize_tokens] at ht
      obtain ⟨p, hp, rfl⟩ := List.mem_map.1 ht
      exact Or.inl ⟨p, hp, hstart⟩
    · rw [tokenize_tokens] at ht
      obtain ⟨p, hp, rfl⟩ := List.mem_map.1 ht
      exact Or.inr (Or.inl ⟨p, hp, hkind, hstart, hstop⟩)
    · rw [tokenize_tokens, List.head?_map, List.head?_eq_getElem?] at ht
      obtain ⟨p, hp, rfl⟩ := Option.map_eq_some_iff.1 ht
      exact Or.inr (Or.inr (Or.inl ⟨p, hp, hkind, hstop⟩))
    · rw [tokenize_tokens, List.getLast?_map] at ht
      obtain ⟨p, hp, rfl⟩ := Option.map_eq_some_iff.1 ht
      exact Or.inr (Or.inr (Or.inr ⟨p, hp, hkind, hstart⟩))
  · rintro (⟨p, hp, hstart⟩ | ⟨p, hp, hkind, hstart, hstop⟩ | ⟨p, hp, hkind, hstop⟩ |
      ⟨p, hp, hkind, hstart⟩)
    · exact .begins p.token (by rw [tokenize_tokens]; exact List.mem_map_of_mem hp) hstart
    · exact .quoted p.token (by rw [tokenize_tokens]; exact List.mem_map_of_mem hp) hkind hstart hstop
    · exact .first p.token (by rw [tokenize_tokens, List.head?_map, List.head?_eq_getElem?, hp]; rfl)
        hkind hstop
    · exact .last p.token (by rw [tokenize_tokens, List.getLast?_map, hp]; rfl) hkind hstart

/-- Where no token holds a place, only the end of the text can be in reach. -/
theorem inReach_iff_of_none (hk : k.IsPlaceOf text)
    (hnone : ∀ p ∈ piecesOf text, ¬ p.token.Holds k.position) :
    InReach text k ↔ ∃ p, (piecesOf text).getLast? = some p ∧ p.token.kind ≠ .whitespace ∧
      p.start.offset ≤ k.offset := by
  rw [inReach_iff]
  refine ⟨?_, fun h => Or.inr (Or.inr (Or.inr h))⟩
  rintro (⟨p, hp, hstart⟩ | ⟨p, hp, hkind, hstart, hstop⟩ | ⟨p, hp, hkind, hstop⟩ | h)
  · exact (hnone p hp (holds_of_start hk hp hstart)).elim
  · exact (hnone p hp (holds_of_not_trivia hk hp (not_trivia_of_quoted hkind) hstart.le hstop)).elim
  · have hmem := List.mem_of_getElem? hp
    have hstart : p.start = Cursor.origin := by
      apply head_pieces
      rw [List.head?_eq_getElem?]
      exact hp
    have hzero : p.start.offset ≤ k.offset := by
      rw [hstart]
      exact Nat.zero_le _
    exact (hnone p hmem (holds_of_not_trivia hk hmem hkind hzero hstop)).elim
  · exact h

/-- Where the anchor is in front of the token at a place, the place is in reach only as the beginning
of that token. -/
theorem inReach_iff_of_before (hq : (piecesOf text)[i + 1]? = some q) (hk : k.IsPlaceOf text)
    (hholds : q.token.Holds k.position) (hquoted : q.token.kind.isQuoted = false)
    (hlast : i + 2 = (piecesOf text).length → q.token.kind ≠ .whitespace → q.start.offset = k.offset) :
    InReach text k ↔ q.start.offset = k.offset := by
  have hmem := List.mem_of_getElem? hq
  obtain ⟨hstart, hstop, -⟩ := (holds_iff hk hmem).1 hholds
  rw [inReach_iff]
  refine ⟨?_, fun h => Or.inl ⟨q, hmem, h⟩⟩
  rintro (⟨x, hx, hxstart⟩ | ⟨x, hx, hkind, hxstart, hxstop⟩ | ⟨x, hx, hkind, hxstop⟩ |
    ⟨x, hx, hkind, hxstart⟩)
  · have hxstop := Piece.start_lt_stop hx
    obtain rfl := eq_of_around hx hmem hxstart.le (by omega) hstart hstop
    exact hxstart
  · obtain rfl := eq_of_around hx hmem hxstart.le hxstop hstart hstop
    rw [hkind] at hquoted
    cases hquoted
  · have hle := stop_le_start hx hq (Nat.succ_pos i)
    omega
  · rw [List.getLast?_eq_getElem?] at hx
    have hi := (List.getElem?_eq_some_iff.1 hq).1
    by_cases hlength : i + 2 = (piecesOf text).length
    · have hindex : (piecesOf text).length - 1 = i + 1 := by omega
      rw [hindex] at hx
      obtain rfl := Option.some.inj (hq.symm.trans hx)
      exact hlast hlength hkind
    · have hle := stop_le_start hq hx (by omega)
      omega

/-- The text of an anchor is around the cursor exactly at the places in reach. -/
theorem around_iff_inReach {t : Token} (hk : k.IsPlaceOf text)
    (h : Model.Anchored (piecesOf text) k t) (hopening : t.kind.isOpening = false)
    (hcomment : t.kind.isComment = false) :
    ∃ p ∈ piecesOf text, t = p.token ∧
      ((p.start.offset ≤ k.offset ∧ k.offset ≤ p.stop.offset) ↔ InReach text k) := by
  have htrivia := isTrivia_eq_false_iff.2 ⟨ne_whitespace_of_not_opening hopening, hcomment⟩
  cases h with
  | @here i p hp ht hholds hkind =>
      have hmem := List.mem_of_getElem? hp
      obtain ⟨hstart, hstop, -⟩ := (holds_iff hk hmem).1 hholds
      refine ⟨p, hmem, ht, iff_of_true ⟨hstart, hstop.le⟩ (inReach_iff.2 ?_)⟩
      rcases hkind with rfl | ⟨hlength, hblank⟩ | hquoted
      · exact Or.inr (Or.inr (Or.inl ⟨p, hp, ht ▸ htrivia, hstop⟩))
      · refine Or.inr (Or.inr (Or.inr ⟨p, ?_, hblank, hstart⟩))
        rw [List.getLast?_eq_getElem?, ← hlength]
        exact hp
      · rcases Nat.eq_or_lt_of_le hstart with heq | hlt
        · exact Or.inl ⟨p, hmem, heq⟩
        · exact Or.inr (Or.inl ⟨p, hmem, hquoted, hlt, hstop⟩)
  | @before i p q hp hq ht hholds hquoted hlast =>
      have hmem := List.mem_of_getElem? hp
      have hnext : q.start.offset = p.stop.offset := congrArg Cursor.offset (start_eq_stop hp hq)
      have hlt := Piece.start_lt_stop hmem
      obtain ⟨hstart, -, -⟩ := (holds_iff hk (List.mem_of_getElem? hq)).1 hholds
      refine ⟨p, hmem, ht, ?_⟩
      rw [inReach_iff_of_before hq hk hholds hquoted hlast]
      omega
  | @last p hp ht hblank hnone =>
      have hlast : (piecesOf text).getLast? = some p := by rw [List.getLast?_eq_getElem?, hp]
      refine ⟨p, List.mem_of_getElem? hp, ht, ?_⟩
      rw [inReach_iff_of_none hk hnone]
      constructor
      · intro h
        exact ⟨p, hlast, hblank, h.1⟩
      · rintro ⟨x, hx, -, hstart⟩
        obtain rfl := Option.some.inj (hlast.symm.trans hx)
        exact ⟨hstart, offset_le_stop hk hlast⟩
  | @beforeBlanks i p q hp hq hlength ht hblank hnone =>
      have hmem := List.mem_of_getElem? hp
      have hqmem := List.mem_of_getElem? hq
      have hnext : q.start.offset = p.stop.offset := congrArg Cursor.offset (start_eq_stop hp hq)
      refine ⟨p, hmem, ht, iff_of_false ?_ ?_⟩
      · rintro ⟨hstart, hstop⟩
        rcases Nat.eq_or_lt_of_le hstop with heq | hlt
        · exact hnone q hqmem (holds_of_start hk hqmem (hnext.trans heq.symm))
        · exact hnone p hmem (holds_of_not_trivia hk hmem (ht ▸ htrivia) hstart hlt)
      · rw [inReach_iff_of_none hk hnone]
        rintro ⟨x, hx, hkind, -⟩
        have hindex : (piecesOf text).length - 1 = i + 1 := by omega
        rw [List.getLast?_eq_getElem?, hindex] at hx
        obtain rfl := Option.some.inj (hq.symm.trans hx)
        exact hkind hblank

end InReach

/-! ### Completion -/

/-- A span touches a position: it begins at or before the position and ends at or behind it. -/
def Span.Touches (r : Span) (p : Position) : Prop := r.start ≤ p ∧ p ≤ r.stop

instance (r : Span) (p : Position) : Decidable (r.Touches p) :=
  inferInstanceAs (Decidable (r.start ≤ p ∧ p ≤ r.stop))

/-- The end of a text on one line, if it can be counted. -/
theorem positionPast_of_onLine {cs : List Char} (h : OnLine cs) {p q : Position}
    (hq : Token.positionPast p cs = .ok q) : q = p.right (units cs) := by
  induction cs generalizing p with
  | nil => exact (Except.ok.inj hq).symm
  | cons c cs ih =>
      obtain ⟨hc, hcs⟩ := onLine_cons.1 h
      have hcr : c ≠ '\r' := by
        rintro rfl
        cases hc
      have hlf : c ≠ '\n' := by
        rintro rfl
        cases hc
      rw [Token.positionPast, if_neg (by simp [Token.breaksLine, hcr, hlf]), if_neg hcr] at hq
      obtain ⟨column, hcolumn, hq⟩ := exists_of_bind_ok hq
      rw [Counter.add] at hcolumn
      split at hcolumn
      · obtain rfl := Except.ok.inj hcolumn
        rw [ih hcs hq, units_cons, Position.right, Position.right, Nat.add_assoc]
      · cases hcolumn

/-- The span of a token on one line, if it can be counted. -/
theorem span_of_onLine {p : Piece} (h : OnLine p.lexeme.text) {range : Span}
    (hspan : p.token.span = .ok range) : range = ⟨p.start.position, p.stop.position⟩ := by
  obtain ⟨stop, hstop, hspan⟩ := exists_of_bind_ok hspan
  rw [Token.endPosition, Piece.token_text, String.toList_ofList] at hstop
  obtain rfl := Except.ok.inj hspan
  rw [positionPast_of_onLine h hstop, stop_of_onLine h]
  rfl

/-- **Completion replaces text around the cursor at the places in reach.**  Take any text, any place in
it and any mode.  Every item of completion there has an anchor.  After a blank or an opening
parenthesis, the item is put in at the cursor.  Otherwise it replaces the text of the anchor, and this
touches the cursor exactly where the place is in reach; elsewhere all of it is in front of the cursor
or behind it. -/
theorem replacement_touches_iff (uri text : String) (mode : Matching) {k : Cursor}
    (hk : k.IsPlaceOf text) {items : List Item}
    (h : (Model.parse uri text).complete .fresh k.position mode = .ok items) :
    ∀ item ∈ items, ∃ t, (Model.parse uri text).anchor k.position = .ok (some t) ∧
      (t.kind.isOpening = true → item.range = .single k.position) ∧
      (t.kind.isOpening = false → t.span = .ok item.range ∧
        (item.range.Touches k.position ↔ InReach text k)) := by
  intro item hitem
  obtain ⟨t, q, hanchor, hcomment, hprompt, hoffered⟩ := Model.exists_prompt h hitem
  have hrange := (Prompt.mem_offered.1 hoffered).1
  refine ⟨t, hanchor, ?_, ?_⟩
  · intro hopening
    rw [promptAt_of_opening hopening] at hprompt
    obtain rfl := Except.ok.inj hprompt
    exact hrange
  · intro hopening
    obtain ⟨p, hp, rfl, haround⟩ :=
      around_iff_inReach hk (Model.anchored hk hanchor hopening hcomment) hopening hcomment
    have honLine := onLine_of_kind hp (ne_whitespace_of_not_opening hopening) hcomment
    rw [promptAt_of_not_opening hopening] at hprompt
    cases hspan : p.token.span with
    | error e =>
        rw [hspan] at hprompt
        cases hprompt
    | ok range =>
        rw [hspan] at hprompt
        obtain rfl := Except.ok.inj hprompt
        obtain rfl : item.range = range := hrange
        refine ⟨rfl, ?_⟩
        rw [span_of_onLine honLine hspan, Span.Touches, ← haround,
          Cursor.position_le_iff (Piece.start_isPlaceOf hp) hk,
          Cursor.position_le_iff hk (Piece.stop_isPlaceOf hp)]

/-- At the end of a text that begins with a comment of two lines, names replace the last word. -/
theorem replacement_touches_iff_last_word :
    let text := "/*\r\n*/ ad"
    let k : Cursor := ⟨⟨1, 5⟩, 9⟩
    let range : Span := ⟨⟨1, 3⟩, ⟨1, 5⟩⟩
    k.IsPlaceOf text ∧
      (Model.parse "a" text).complete .fresh k.position .caseSensitive
        = .ok [⟨.function, "address", range⟩, ⟨.keyword, "address", range⟩] ∧
      InReach text k ∧ range.Touches k.position := by
  intro text k range
  have hk : k.IsPlaceOf text := ⟨text.toList, [], (List.append_nil _).symm, by decide⟩
  have hcomplete : (Model.parse "a" text).complete .fresh k.position .caseSensitive
      = .ok [⟨.function, "address", range⟩, ⟨.keyword, "address", range⟩] :=
    eq_ok_of_toOption (by decide +kernel)
  have hanchor : (Model.parse "a" text).anchor k.position
      = .ok (some ⟨.identifier, "ad", 1, 3, 7, 9⟩) := eq_ok_of_toOption (by decide +kernel)
  have hlast : (tokenize text).1.getLast? = some ⟨.identifier, "ad", 1, 3, 7, 9⟩ := by decide +kernel
  have hreach : InReach text k := .last _ hlast (by decide) (by decide)
  obtain ⟨t, ht, -, hword⟩ :=
    replacement_touches_iff "a" text .caseSensitive hk hcomplete _ List.mem_cons_self
  obtain rfl := Option.some.inj (Except.ok.inj (ht.symm.trans hanchor))
  exact ⟨hk, hcomplete, hreach, (hword rfl).2.2 hreach⟩

/-- Not everything that completion replaces is around the cursor: below a word, on an empty line at the
end of the text, names replace the word on the line above. -/
theorem not_all_replacements_touch :
    ¬ ∀ (uri text : String) (mode : Matching) (k : Cursor) (items : List Item), k.IsPlaceOf text →
      (Model.parse uri text).complete .fresh k.position mode = .ok items →
      ∀ item ∈ items, item.range.Touches k.position := by
  intro hall
  have hk : Cursor.IsPlaceOf ⟨⟨1, 0⟩, 3⟩ "ad\n" :=
    ⟨"ad\n".toList, [], (List.append_nil _).symm, by decide⟩
  have hcomplete : (Model.parse "a" "ad\n").complete .fresh ⟨1, 0⟩ .caseSensitive
      = .ok [⟨.function, "address", ⟨⟨0, 0⟩, ⟨0, 2⟩⟩⟩, ⟨.keyword, "address", ⟨⟨0, 0⟩, ⟨0, 2⟩⟩⟩] :=
    eq_ok_of_toOption (by decide +kernel)
  have htouches := hall "a" "ad\n" .caseSensitive _ _ hk hcomplete _ List.mem_cons_self
  exact absurd htouches (by decide)

end RexxService
