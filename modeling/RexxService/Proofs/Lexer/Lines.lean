import RexxService.Proofs.Lexer.Coverage

/-!
# Lines and columns

Two things count lines: the cursor, while a text is read, and `Token.endPosition`, which sees the text
of one token only.  The cursor counts the carriage return of a two-character break as a column and
drops it with the line feed; `endPosition` passes over it.  Both are compared with a third count,
which looks at a text as a whole:

* **`lineBreaks`**, **`lastLine`** — the number of line breaks of a text, and what follows the last one;
* **`Position.past`** — the position reached over a text, and **`past_origin`**, which says that from
  the start of a text it is given by these two;
* **`advance_position`** — the cursor agrees, unless it stops inside a line break;
* **`positionPast_eq`** — so does the end of a token, unless a counter overflows.

Tokens never end inside a break, so the counts agree at every token (`lines_tokenize`).
-/

namespace RexxService

open RexxService.Text RexxService.Lexeme

/-- The number of line breaks of a text; a carriage return and the line feed after it are one. -/
def lineBreaks : List Char → Nat
  | [] => 0
  | '\r' :: '\n' :: cs => lineBreaks cs + 1
  | c :: cs => if endsLine c then lineBreaks cs + 1 else lineBreaks cs

/-- The characters of a text after its last line break. -/
def lastLine : List Char → List Char
  | [] => []
  | c :: cs => if (c :: cs).any endsLine then lastLine cs else c :: cs

/-- The position reached from `p` over a text. -/
def Position.past (p : Position) : List Char → Position
  | [] => p
  | '\r' :: '\n' :: cs => p.nextLine.past cs
  | c :: cs => if endsLine c then p.nextLine.past cs else (p.right (charUnits c)).past cs

/-! ### The position reached over a text -/

theorem lastLine_of_not_any {cs : List Char} (h : cs.any endsLine = false) : lastLine cs = cs := by
  cases cs with
  | nil => rfl
  | cons c cs => rw [lastLine, h]; rfl

theorem lastLine_cons_of_endsLine {c : Char} (h : endsLine c = true) (cs : List Char) :
    lastLine (c :: cs) = lastLine cs := by
  rw [lastLine, List.any_cons, h]
  rfl

theorem lineBreaks_cons_of_endsLine {c : Char} (h : endsLine c = true) {cs : List Char}
    (hcrlf : ∀ ds, c = '\r' → cs = '\n' :: ds → False) :
    lineBreaks (c :: cs) = lineBreaks cs + 1 := by
  rw [lineBreaks.eq_3 c cs hcrlf, if_pos h]

theorem lineBreaks_cons_of_not {c : Char} (h : ¬ endsLine c = true) (cs : List Char) :
    lineBreaks (c :: cs) = lineBreaks cs := by
  have hcrlf : ∀ ds, c = '\r' → cs = '\n' :: ds → False := by
    rintro ds rfl
    exact absurd (by decide) h
  rw [lineBreaks.eq_3 c cs hcrlf, if_neg h]

namespace Position

/-- A break sets the column back; without one the line stays and the column grows. -/
theorem past_eq (p : Position) (cs : List Char) :
    p.past cs = ⟨p.line + lineBreaks cs,
      (if cs.any endsLine then 0 else p.column) + units (lastLine cs)⟩ := by
  fun_induction past p cs with
  | case1 p => rfl
  | case2 p cs ih =>
      have hany : ('\r' :: '\n' :: cs).any endsLine = true := rfl
      rw [ih, lastLine_cons_of_endsLine (by decide), lastLine_cons_of_endsLine (by decide), lineBreaks,
        hany, if_pos rfl]
      show mk (p.line + 1 + lineBreaks cs) ((if cs.any endsLine then 0 else 0) + _) = _
      rw [ite_self, Nat.add_assoc, Nat.add_comm 1]
  | case3 p c cs hcrlf hc ih =>
      have hany : (c :: cs).any endsLine = true := by rw [List.any_cons, hc, Bool.true_or]
      rw [ih, lastLine_cons_of_endsLine hc, lineBreaks_cons_of_endsLine hc hcrlf, hany, if_pos rfl]
      show mk (p.line + 1 + lineBreaks cs) ((if cs.any endsLine then 0 else 0) + _) = _
      rw [ite_self, Nat.add_assoc, Nat.add_comm 1]
  | case4 p c cs _ hc ih =>
      have hany : (c :: cs).any endsLine = cs.any endsLine := by
        rw [List.any_cons, Bool.eq_false_iff.2 hc, Bool.false_or]
      rw [ih, lineBreaks_cons_of_not hc, hany]
      by_cases hrest : cs.any endsLine = true
      · rw [lastLine, hany, if_pos hrest, if_pos hrest, if_pos hrest]
        rfl
      · rw [lastLine, hany, if_neg hrest, if_neg hrest, if_neg hrest,
          lastLine_of_not_any (by simpa using hrest), units_cons, ← Nat.add_assoc]
        rfl

/-- From the start of a text, the position is given by its breaks and its last line. -/
theorem past_origin (cs : List Char) : origin.past cs = ⟨lineBreaks cs, units (lastLine cs)⟩ := by
  rw [past_eq]
  simp only [origin, ite_self, Nat.zero_add]

end Position

/-! ### The cursor -/

/-- What follows the first character of a text is not cut inside a break where the text is not. -/
theorem not_splitsBreak_tail {c : Char} {cs back : List Char} (h : ¬ SplitsBreak (c :: cs) back) :
    ¬ SplitsBreak cs back := by
  rintro ⟨hlast, hhead⟩
  refine h ⟨?_, hhead⟩
  rw [List.getLast?_cons, hlast]
  rfl

/-- The cursor agrees with the position reached over a text, unless it stops inside a break. -/
theorem Cursor.advance_position (k : Cursor) (cs : List Char) {rest : List Char}
    (h : ¬ SplitsBreak cs rest) : (k.advance cs rest).position = k.position.past cs := by
  induction cs using lineBreaks.induct generalizing k with
  | case1 => rfl
  | case2 cs ih =>
      rw [advance_cons, advance_cons, ih _ (not_splitsBreak_tail (not_splitsBreak_tail h)),
        Position.past]
      rfl
  | case3 c cs hcrlf hc ih =>
      have hnext : positionAfter k.position c (cs.head?.or rest.head?) = k.position.nextLine := by
        rcases endsLine_iff.1 hc with rfl | rfl
        · -- The character after a carriage return could be in the text or be the first of the rest.
          have hne : cs.head?.or rest.head? ≠ some '\n' := by
            cases cs with
            | nil => exact fun hrest => h ⟨rfl, hrest⟩
            | cons d ds =>
                intro hd
                exact hcrlf ds rfl (by rw [Option.some.inj hd])
          rw [positionAfter, if_neg (by decide), if_pos rfl, if_neg hne]
        · rfl
      rw [advance_cons, ih _ (not_splitsBreak_tail h), Position.past.eq_3 _ _ _ hcrlf, if_pos hc]
      show (positionAfter _ _ _).past cs = _
      rw [hnext]
  | case4 c cs hcrlf hc ih =>
      have hnext : positionAfter k.position c (cs.head?.or rest.head?)
          = k.position.right (charUnits c) := by
        have hlf : c ≠ '\n' := fun h => hc (endsLine_iff.2 (Or.inr h))
        have hcr : c ≠ '\r' := fun h => hc (endsLine_iff.2 (Or.inl h))
        rw [positionAfter, if_neg hlf, if_neg hcr]
      rw [advance_cons, ih _ (not_splitsBreak_tail h), Position.past.eq_3 _ _ _ hcrlf, if_neg hc]
      show (positionAfter _ _ _).past cs = _
      rw [hnext]

/-! ### The end of a token -/

theorem Token.breaksLine_of_endsLine {c : Char} {cs : List Char} (h : endsLine c = true)
    (hcrlf : ∀ ds, c = '\r' → cs = '\n' :: ds → False) : breaksLine c cs.head? = true := by
  rcases endsLine_iff.1 h with rfl | rfl
  · cases cs with
    | nil => rfl
    | cons d ds =>
        have hd : d ≠ '\n' := fun hd => hcrlf ds rfl (by rw [hd])
        simp [breaksLine, hd]
  · rfl

/-- The end of a token is the position reached over its text, if the counters can hold it. -/
theorem Token.positionPast_eq (p : Position) (cs : List Char)
    (hline : p.line + units cs < Counter.placeLimit)
    (hcolumn : p.column + units cs < Counter.placeLimit) :
    positionPast p cs = .ok (p.past cs) := by
  fun_induction Position.past p cs with
  | case1 p => rfl
  | case2 p cs ih =>
      have hcr : charUnits '\r' = 1 := rfl
      rw [units_cons, units_cons] at hline hcolumn
      rw [positionPast, if_neg (by simp [breaksLine]), if_pos rfl, positionPast,
        if_pos (by simp [breaksLine]), Counter.add_eq_ok (by omega)]
      refine ih ?_ ?_
      · show p.line + 1 + units cs < _
        omega
      · show 0 + units cs < _
        omega
  | case3 p c cs hcrlf hc ih =>
      have hpos := charUnits_pos c
      rw [units_cons] at hline hcolumn
      rw [positionPast, if_pos (breaksLine_of_endsLine hc hcrlf), Counter.add_eq_ok (by omega)]
      refine ih ?_ ?_
      · show p.line + 1 + units cs < _
        omega
      · show 0 + units cs < _
        omega
  | case4 p c cs _ hc ih =>
      have hlf : c ≠ '\n' := fun h => hc (endsLine_iff.2 (Or.inr h))
      have hcr : c ≠ '\r' := fun h => hc (endsLine_iff.2 (Or.inl h))
      rw [units_cons] at hline hcolumn
      rw [positionPast, if_neg (by simp [breaksLine, hlf, hcr]), if_neg hcr,
        Counter.add_eq_ok (by omega)]
      refine ih ?_ ?_
      · show p.line + units cs < _
        omega
      · show p.column + charUnits c + units cs < _
        omega

/-! ### Tokens -/

/-- A piece stops where its token ends, and that place can be counted. -/
theorem endPosition_token {text : String} (h : units text.toList < Counter.placeLimit) {p : Piece}
    (hp : p ∈ piecesOf text) : p.token.endPosition = .ok p.stop.position := by
  obtain ⟨front, c, rest, htext, -, rfl⟩ := mem_pieces hp
  have hplace := Cursor.advance_position_le Cursor.origin front (c :: rest)
  have horigin : Cursor.origin.position.line + Cursor.origin.position.column = 0 := rfl
  have hscan := congrArg units (scan_append c rest)
  rw [units_append] at hscan
  rw [htext, units_append] at h
  show Token.positionPast (Cursor.origin.advance front (c :: rest)).position _ = _
  rw [Piece.token_text, String.toList_ofList, Token.positionPast_eq]
  · exact congrArg _ (Cursor.advance_position _ _ (scan_not_splitsBreak c rest)).symm
  · show _ + units (scan c rest).text < _
    omega
  · show _ + units (scan c rest).text < _
    omega

/-- **Lines and columns are those of the text.**  Every token of a text whose places can be counted
stands, by the breaks and the last line of what is in front of it, where its line and column say, and
not inside a break; and it ends, without an overflow, where the next token begins or, for the last
token, where the text ends. -/
theorem lines_tokenize (text : String) (h : units text.toList < Counter.placeLimit) :
    (∀ t ∈ (tokenize text).1, ∃ front back, text.toList = front ++ t.text.toList ++ back ∧
        units front = t.offset ∧ ¬ SplitsBreak front (t.text.toList ++ back) ∧
        t.line = lineBreaks front ∧ t.column = units (lastLine front)) ∧
      (tokenize text).1.IsChain (fun t u => t.endPosition = .ok u.start) ∧
      ∀ t ∈ (tokenize text).1.getLast?,
        t.endPosition = .ok ⟨lineBreaks text.toList, units (lastLine text.toList)⟩ := by
  rw [tokenize_tokens]
  refine ⟨?_, ?_, ?_⟩
  · intro t ht
    obtain ⟨p, hp, rfl⟩ := List.mem_map.1 ht
    obtain ⟨front, c, rest, htext, hsplit, rfl⟩ := mem_pieces hp
    have hstart : (Cursor.origin.advance front (c :: rest)).position
        = ⟨lineBreaks front, units (lastLine front)⟩ := by
      rw [Cursor.advance_position _ _ hsplit]
      exact Position.past_origin front
    refine ⟨front, (scan c rest).rest, ?_, ?_, ?_, ?_, ?_⟩
    · rw [Piece.token_text, String.toList_ofList, List.append_assoc, scan_append, htext]
    · rw [Piece.token_offset, Cursor.advance_offset]
      exact (Nat.zero_add _).symm
    · rw [Piece.token_text, String.toList_ofList, scan_append]
      exact hsplit
    · exact congrArg Position.line hstart
    · exact congrArg Position.column hstart
  · rw [List.isChain_map]
    apply (isChain_pieces _ _).imp_of_mem_imp
    intro p q hp _ hpq
    rw [endPosition_token h hp, q.token_start, hpq]
  · intro t ht
    rw [List.getLast?_map] at ht
    obtain ⟨p, hp, rfl⟩ := Option.map_eq_some_iff.1 ht
    rw [endPosition_token h (List.mem_of_getLast? hp), getLast_pieces hp,
      Cursor.advance_position _ _ fun hsplit => by cases hsplit.2]
    exact congrArg _ (Position.past_origin text.toList)

/-- A text with each kind of break, one of them in an unclosed comment behind a character of two units. -/
theorem lines_tokenize_breaks :
    let text := "a\r\n\r😀\n/* \r\n"
    let blank : Token := ⟨.whitespace, "\n", 2, 2, 6, 7⟩
    let comment : Token := ⟨.commentUnclosed, "/* \r\n", 3, 0, 7, 12⟩
    units text.toList < Counter.placeLimit ∧
      (tokenize text).1 = [⟨.identifier, "a", 0, 0, 0, 1⟩, ⟨.whitespace, "\r\n\r", 0, 1, 1, 4⟩,
        ⟨.invalid, "😀", 2, 0, 4, 6⟩, blank, comment] ∧
      (∃ front back, text.toList = front ++ comment.text.toList ++ back ∧ units front = 7 ∧
        ¬ SplitsBreak front (comment.text.toList ++ back) ∧
        3 = lineBreaks front ∧ 0 = units (lastLine front)) ∧
      blank.endPosition = .ok comment.start ∧ comment.endPosition = .ok ⟨4, 0⟩ := by
  intro text blank comment
  have hunits : units text.toList < Counter.placeLimit := by decide
  have htokens : (tokenize text).1 = [⟨.identifier, "a", 0, 0, 0, 1⟩, ⟨.whitespace, "\r\n\r", 0, 1, 1, 4⟩,
      ⟨.invalid, "😀", 2, 0, 4, 6⟩, blank, comment] := by decide +kernel
  obtain ⟨hplaces, hchain, hlast⟩ := lines_tokenize text hunits
  rw [htokens] at hplaces hchain hlast
  simp only [List.isChain_cons_cons] at hchain
  have hend : (⟨lineBreaks text.toList, units (lastLine text.toList)⟩ : Position) = ⟨4, 0⟩ := by decide
  rw [hend] at hlast
  exact ⟨hunits, htokens, hplaces comment (by simp), hchain.2.2.2.1, hlast comment rfl⟩

end RexxService
