import RexxService.Proofs.Completion.Names
import RexxService.Proofs.Completion.Replacement

/-!
# Completion at the end of a word

Most completions are asked for right behind a word.  No token holds this place on behalf of the word: the
place belongs to the next token, if there is one.  So the search gets to the word in several ways.  At the
end of the text it falls back to the last token.  In front of blanks it steps back by one, and so it does
in front of a parenthesis with more text behind it.  A parenthesis that ends the text is kept at first, and
left because it begins at the cursor.

* **`OnOffer`**, **`mem_offered_iff`** — what is offered for a typed text;
* **`Token.Kind.isWord`** — the kinds of words;
* **`lastAnchor`**, **`anchor_of_not_holds`** — the anchor where no token holds the position;
* **`anchor_of_last`**, **`anchor_of_opening`** — the anchor behind a word;
* **`completion_at_word_end`** — completion there extends the word.
-/

namespace RexxService

open RexxService.Text RexxService.Completion

/-! ### What is offered for a typed text -/

namespace Completion

/-- An item is on offer for a typed text: its name is a step, longer than the typed text, of a variable
that matches it, or it is the name of a label, a function or a keyword that does. -/
def OnOffer (m : Model) (mode : Matching) (typed : String) (item : Item) : Prop :=
  match item.kind with
  | .var => typed.length < item.name.length ∧
      ∃ v ∈ m.vars, mode.accepts typed v.text = true ∧ IsStep item.name v.text
  | .label => (∃ l ∈ m.labels, l.text = item.name) ∧ mode.accepts typed item.name = true
  | .function => item.name ∈ Vocabulary.functions ∧ mode.accepts typed item.name = true
  | .keyword => item.name ∈ Vocabulary.keywords ∧ mode.accepts typed item.name = true

/-- What is offered for a typed text that is not empty. -/
theorem mem_offered_iff {m : Model} {mode : Matching} {typed : String} {range : Span} {item : Item}
    (h : typed ≠ "") :
    item ∈ Prompt.offered ⟨typed, false, range⟩ m mode ↔
      item.range = range ∧ OnOffer m mode typed item := by
  have hbuiltin (words : List String) :
      item.name ∈ Prompt.builtinNames ⟨typed, false, range⟩ mode words ↔
        item.name ∈ words ∧ mode.accepts typed item.name = true := by
    rw [Prompt.builtinNames, if_neg (by simpa using h), List.mem_filter]
  rw [Prompt.mem_offered, OnOffer]
  refine and_congr_right fun _ => ?_
  cases item.kind with
  | var => exact (Prompt.listsSteps_variableNames _ mode m.vars).mem_iff _
  | label =>
      show item.name ∈ Prompt.labelNames _ mode m.labels ↔ _
      rw [Prompt.labelNames, List.mem_filter, List.mem_map]
      rfl
  | function => exact hbuiltin _
  | keyword => exact hbuiltin _

end Completion

/-! ### Words -/

theorem Piece.token_text_ne_empty {k : Cursor} {cs : List Char} {p : Piece} (hp : p ∈ pieces k cs) :
    p.token.text ≠ "" := by
  intro hempty
  have htext := congrArg String.toList hempty
  rw [Piece.token_text, String.toList_ofList] at htext
  exact lexeme_text_ne_nil hp htext

/-- Whether the kind is a word: a symbol, classified or not, or a number. -/
def Token.Kind.isWord : Token.Kind → Bool
  | identifier | keyword | function | number => true
  | _ => false

theorem plain_of_word {kind : Token.Kind} (h : kind.isWord = true) :
    kind.isComment = false ∧ kind.isQuoted = false ∧ kind.isOpening = false := by
  revert h
  cases kind <;> decide

theorem not_comment_of_opening {kind : Token.Kind} (h : kind.isOpening = true) :
    kind.isComment = false := by
  revert h
  cases kind <;> decide

/-! ### The anchor where no token holds the position -/

theorem Token.holds_start {t : Token} (h : t.offset < t.endOffset) : t.Holds t.start := by
  refine ⟨rfl, Nat.le_refl _, ?_⟩
  show t.column < t.column + (t.endOffset - t.offset)
  omega

namespace Model

/-- The token that is extended where no token holds the position: the last token or, if this is blank,
the one in front of it. -/
def lastAnchor (m : Model) : Option Token :=
  m.tokens.back?.bind fun last =>
    if last.kind = .whitespace then m.tokens[m.tokens.size - 2]? else some last

section LastAnchor

variable {m : Model} {place : Position} {found : Option Nat}

theorem exists_lastAnchor (h : 0 < m.tokens.size) : ∃ t ∈ m.tokens, m.lastAnchor = some t := by
  have hlast : m.tokens.size - 1 < m.tokens.size := by omega
  have hfront : m.tokens.size - 2 < m.tokens.size := by omega
  rw [lastAnchor, Array.back?_eq_getElem?, Array.getElem?_eq_getElem hlast,
    Array.getElem?_eq_getElem hfront, Option.bind_some]
  split
  · exact ⟨_, Array.getElem_mem hfront, rfl⟩
  · exact ⟨_, Array.getElem_mem hlast, rfl⟩

/-- Where no token holds the position, the search falls back to the end of the text. -/
theorem anchor_of_not_holds (hts : Orderly m.tokens.toList) (h : m.locate place = .ok found)
    (hnone : ∀ t ∈ m.tokens, ¬ t.Holds place) (hsize : 0 < m.tokens.size) :
    m.anchor place = .ok m.lastAnchor := by
  obtain ⟨last, hlast⟩ : ∃ last, m.tokens[m.tokens.size - 1]? = some last :=
    ⟨_, Array.getElem?_eq_getElem (by omega)⟩
  have hlocate : m.locate place = .ok (some (m.tokens.size - 1)) := by
    rw [h, locate_of_not_holds hts h hnone hsize]
  -- No token begins at the position, so there is no further step back.
  have hstays {j : Nat} {t : Token} (hprevious : m.locatePrevious place = .ok (some j))
      (ht : m.tokens[j]? = some t) : m.anchor place = .ok (some t) := by
    rw [anchor_eq hprevious ht, if_neg]
    rintro ⟨-, rfl⟩
    have hmem := Array.mem_of_getElem? ht
    exact hnone t hmem (Token.holds_start (hts.nonempty t (Array.mem_toList_iff.2 hmem)))
  have hprevious := locatePrevious_eq hlocate hlast
  rw [lastAnchor, Array.back?_eq_getElem?, hlast, Option.bind_some]
  by_cases hblank : last.kind = .whitespace
  · have hplain : (last.kind.isComment || last.kind.isQuoted) = false := by rw [hblank]; rfl
    rw [hplain, if_neg Bool.false_ne_true, if_neg fun h => h.2 hblank] at hprevious
    rw [if_pos hblank]
    have hlt : m.tokens.size - 2 < m.tokens.size := by omega
    rw [Array.getElem?_eq_getElem hlt]
    exact hstays hprevious (Array.getElem?_eq_getElem hlt)
  · have hkept : m.tokens.size - 1 + 1 = m.tokens.size ∧ last.kind ≠ .whitespace :=
      ⟨by omega, hblank⟩
    rw [if_pos hkept, ite_self] at hprevious
    rw [if_neg hblank]
    exact hstays hprevious hlast

end LastAnchor

/-! ### The anchor behind a word -/

variable {uri text : String} {i : Nat} {p q : Piece}

/-- In a text whose places can be counted, every search for a token comes to an end. -/
theorem exists_locate_parse (uri : String) (h : units text.toList < Counter.placeLimit)
    (place : Position) : ∃ found, (parse uri text).locate place = .ok found := by
  refine exists_locate fun t ht => ?_
  obtain ⟨p, hp, rfl⟩ := token_of_mem_tokens ht
  exact exists_contains_token h hp place

/-- No token holds the end of the last one. -/
theorem not_holds_stop_of_last (hp : (piecesOf text)[i]? = some p)
    (hlast : (piecesOf text)[i + 1]? = none) (hq : q ∈ piecesOf text) :
    ¬ q.token.Holds p.stop.position := by
  intro hholds
  have hmem := List.mem_of_getElem? hp
  have hlt := ((holds_iff (Piece.stop_isPlaceOf hmem) hq).1 hholds).2.1
  obtain ⟨j, hj⟩ := List.getElem?_of_mem hq
  have hjlength := (List.getElem?_eq_some_iff.1 hj).1
  rw [List.getElem?_eq_none_iff] at hlast
  rcases Nat.eq_or_lt_of_le (show j ≤ i by omega) with rfl | hji
  · obtain rfl := Option.some.inj (hp.symm.trans hj)
    exact Nat.lt_irrefl _ hlt
  · have hstop := stop_le_start hj hp hji
    have hstart := Piece.start_lt_stop hmem
    omega

/-- Behind a word that ends the text, the search falls back to the word. -/
theorem anchor_of_last {found : Option Nat} (hp : (piecesOf text)[i]? = some p)
    (hword : p.token.kind.isWord = true) (hlast : (piecesOf text)[i + 1]? = none)
    (h : (parse uri text).locate p.stop.position = .ok found) :
    (parse uri text).anchor p.stop.position = .ok (some p.token) := by
  have htoken : (parse uri text).tokens[i]? = some p.token := by rw [getElem?_parse, hp]; rfl
  have hsize : i + 1 = (parse uri text).tokens.size := by
    have hi := (List.getElem?_eq_some_iff.1 hp).1
    rw [List.getElem?_eq_none_iff] at hlast
    rw [size_parse]
    omega
  have hnone : ∀ t ∈ (parse uri text).tokens, ¬ t.Holds p.stop.position := by
    intro t ht
    obtain ⟨q, hq, rfl⟩ := token_of_mem_tokens ht
    exact not_holds_stop_of_last hp hlast hq
  have hfallback : (parse uri text).lastAnchor = some p.token := by
    rw [lastAnchor, Array.back?_eq_getElem?, ← hsize, Nat.add_sub_cancel, htoken, Option.bind_some,
      if_neg (ne_whitespace_of_not_opening (plain_of_word hword).2.2)]
  rw [anchor_of_not_holds (orderly_parse uri text) h hnone (by omega), hfallback]

/-- Behind a word with a blank or an opening parenthesis after it, the search finds what follows the word
and steps back from there. -/
theorem anchor_of_opening {found : Option Nat} (hp : (piecesOf text)[i]? = some p)
    (hword : p.token.kind.isWord = true) (hq : (piecesOf text)[i + 1]? = some q)
    (hopening : q.token.kind.isOpening = true)
    (h : (parse uri text).locate p.stop.position = .ok found) :
    (parse uri text).anchor p.stop.position = .ok (some p.token) := by
  have htoken : (parse uri text).tokens[i]? = some p.token := by rw [getElem?_parse, hp]; rfl
  have hnext : (parse uri text).tokens[i + 1]? = some q.token := by rw [getElem?_parse, hq]; rfl
  have hstart : q.start = p.stop := start_eq_stop hp hq
  have hholds : q.token.Holds p.stop.position :=
    holds_of_start (Piece.stop_isPlaceOf (List.mem_of_getElem? hp)) (List.mem_of_getElem? hq)
      (congrArg Cursor.offset hstart)
  have hlocate : (parse uri text).locate p.stop.position = .ok (some (i + 1)) := by
    rw [h, located_of_holds h hq hholds]
  have hprevious := locatePrevious_eq hlocate hnext
  rw [not_comment_of_opening hopening, not_quoted_of_opening hopening, Bool.or_self,
    if_neg Bool.false_ne_true] at hprevious
  by_cases hkept : i + 1 + 1 = (parse uri text).tokens.size ∧ q.token.kind ≠ .whitespace
  · -- A parenthesis that ends the text begins at the cursor.
    rw [if_pos hkept] at hprevious
    have hback : q.token.kind.isOpening = true ∧ q.token.start = p.stop.position :=
      ⟨hopening, congrArg Cursor.position hstart⟩
    rw [anchor_eq hprevious hnext, if_pos hback, Nat.add_sub_cancel, htoken]
  · rw [if_neg hkept, Nat.add_sub_cancel] at hprevious
    rw [anchor_eq hprevious htoken, (plain_of_word hword).2.2, if_neg fun h => Bool.false_ne_true h.1]

/-- The anchor at the end of a word is the word, whatever follows it. -/
theorem anchor_stop (uri : String) (h : units text.toList < Counter.placeLimit)
    (hp : (piecesOf text)[i]? = some p) (hword : p.token.kind.isWord = true)
    (hnext : ∀ q, (piecesOf text)[i + 1]? = some q → q.token.kind.isOpening = true) :
    (parse uri text).anchor p.stop.position = .ok (some p.token) := by
  obtain ⟨found, hfound⟩ := exists_locate_parse uri h p.stop.position
  cases hq : (piecesOf text)[i + 1]? with
  | none => exact anchor_of_last hp hword hq hfound
  | some q => exact anchor_of_opening hp hword hq (hnext q hq) hfound

end Model

/-- **Completing at the end of a word completes that word.**  Take any text whose places can be counted, any
word in it that is the last token or has a blank or an opening parenthesis right behind it, and any mode.
The place where the word ends can be counted, the word is the anchor there, and the items of completion are
those that replace the word and have a name on offer for its text. -/
theorem completion_at_word_end (uri text : String) (mode : Matching)
    (h : units text.toList < Counter.placeLimit) {i : Nat} {k : Token}
    (hk : (Model.parse uri text).tokens[i]? = some k) (hword : k.kind.isWord = true)
    (hnext : ∀ next, (Model.parse uri text).tokens[i + 1]? = some next →
      next.kind = .whitespace ∨ next.kind = .leftParenthesis) :
    ∃ place range items, k.endPosition = .ok place ∧ k.span = .ok range ∧
      (Model.parse uri text).anchor place = .ok (some k) ∧
      (Model.parse uri text).complete .fresh place mode = .ok items ∧
      ∀ item, item ∈ items ↔
        item.range = range ∧ OnOffer (Model.parse uri text) mode k.text item := by
  rw [Model.getElem?_parse] at hk
  obtain ⟨p, hp, rfl⟩ := Option.map_eq_some_iff.1 hk
  have hmem := List.mem_of_getElem? hp
  have hspan := span_token h hmem
  obtain ⟨hcomment, -, hopening⟩ := plain_of_word hword
  have hbehind : ∀ q, (piecesOf text)[i + 1]? = some q → q.token.kind.isOpening = true := by
    intro q hq
    rcases hnext q.token (by rw [Model.getElem?_parse, hq]; rfl) with hkind | hkind
    · rw [hkind]
      rfl
    · rw [hkind]
      rfl
  have hanchor := Model.anchor_stop uri h hp hword hbehind
  have hprompt : promptAt p.token p.stop.position
      = .ok ⟨p.token.text, false, ⟨p.start.position, p.stop.position⟩⟩ := by
    rw [promptAt_of_not_opening hopening, hspan]
    rfl
  refine ⟨p.stop.position, ⟨p.start.position, p.stop.position⟩, _, endPosition_token h hmem, hspan,
    hanchor, Model.complete_of_prompt hanchor hcomment hprompt mode, fun item => ?_⟩
  exact mem_offered_iff (Piece.token_text_ne_empty hmem)

/-- A keyword in front of a parenthesis that ends the text is extended like any other word. -/
theorem completion_at_word_end_parenthesis :
    let m := Model.parse "a" "total = 1\nsay to("
    let k : Token := ⟨.keyword, "to", 1, 4, 14, 16⟩
    let range : Span := ⟨⟨1, 4⟩, ⟨1, 6⟩⟩
    m.tokens[8]? = some k ∧ m.tokens[9]? = some ⟨.leftParenthesis, "(", 1, 6, 16, 17⟩ ∧
      m.anchor ⟨1, 6⟩ = .ok (some k) ∧
      m.complete .fresh ⟨1, 6⟩ .caseSensitive = .ok [⟨.var, "total", range⟩] ∧
      ∀ item, item = ⟨.var, "total", range⟩ ↔
        item.range = range ∧ OnOffer m .caseSensitive "to" item := by
  intro m k range
  have hk : m.tokens[8]? = some k := by decide +kernel
  have hparenthesis : m.tokens[9]? = some ⟨.leftParenthesis, "(", 1, 6, 16, 17⟩ := by decide +kernel
  have hcomplete : m.complete .fresh ⟨1, 6⟩ .caseSensitive = .ok [⟨.var, "total", range⟩] :=
    eq_ok_of_toOption (by decide +kernel)
  have hnext : ∀ next, m.tokens[9]? = some next →
      next.kind = .whitespace ∨ next.kind = .leftParenthesis := by
    intro next h
    obtain rfl := Option.some.inj (hparenthesis.symm.trans h)
    exact Or.inr rfl
  have hend : k.endPosition = .ok ⟨1, 6⟩ := eq_ok_of_toOption (by decide +kernel)
  have hspan : k.span = .ok range := eq_ok_of_toOption (by decide +kernel)
  obtain ⟨place, range', items, hplace, hrange, hanchor, hitems, hiff⟩ :=
    completion_at_word_end "a" _ .caseSensitive (by decide) hk rfl hnext
  obtain rfl := Except.ok.inj (hend.symm.trans hplace)
  obtain rfl := Except.ok.inj (hspan.symm.trans hrange)
  obtain rfl := Except.ok.inj (hcomplete.symm.trans hitems)
  refine ⟨hk, hparenthesis, hanchor, hcomplete, fun item => ?_⟩
  rw [← hiff, List.mem_singleton]

end RexxService
