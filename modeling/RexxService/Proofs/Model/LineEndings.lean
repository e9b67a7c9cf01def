import RexxService.Proofs.Model.Likeness
import RexxService.Proofs.Model.Ranges

/-!
# Line endings do not matter

A line may end in a line feed, a carriage return or both.  A text with line feeds and the same text with
another ending have different offsets, since a break may be one character or two, but the same lines and
columns, and the same is found in them.

* **`LineEnding`**, **`endLines`** — the other endings, and a text that has them;
* **`past_apply`** — either text leads to the same line and column;
* **`pieces_endLines`** — the pieces of the one are those of the other with the other ending;
* **`SameButEndings`** — tokens that begin and end at one position and differ in line endings only;
* **`line_endings_ignored`** — tokens, names, diagnostics and outlines of the two texts.
-/

namespace RexxService

open RexxService.Text RexxService.Lexeme List

/-- What may end a line in place of a line feed. -/
inductive LineEnding where
  | cr
  | crlf
deriving DecidableEq, Repr

namespace LineEnding

def mark : LineEnding → List Char
  | cr => ['\r']
  | crlf => ['\r', '\n']

def spell (e : LineEnding) (c : Char) : List Char := if c = '\n' then e.mark else [c]

def endLines (e : LineEnding) (s : String) : String := String.ofList (s.toList.flatMap e.spell)

theorem spell_of_ne (e : LineEnding) {c : Char} (h : c ≠ '\n') : e.spell c = [c] := if_neg h

def respelling (e : LineEnding) : Respelling where
  spell := e.spell
  lineFeed := by
    cases e with
    | cr => exact ⟨List.cons_ne_nil _ _, List.all_eq_true.1 (by decide)⟩
    | crlf => exact ⟨List.cons_ne_nil _ _, List.all_eq_true.1 (by decide)⟩
  other := fun c hc => ⟨c, e.spell_of_ne hc, rfl⟩

variable (e : LineEnding)

theorem apply_cons_lineFeed (cs : List Char) :
    e.respelling.apply ('\n' :: cs) = e.mark ++ e.respelling.apply cs := rfl

theorem apply_cons_other {c : Char} (h : c ≠ '\n') (cs : List Char) :
    e.respelling.apply (c :: cs) = c :: e.respelling.apply cs := by
  rw [Respelling.apply_cons]
  show e.spell c ++ _ = _
  rw [e.spell_of_ne h]
  rfl

/-- On one line there is nothing to replace. -/
theorem apply_of_onLine {cs : List Char} (h : OnLine cs) : e.respelling.apply cs = cs := by
  induction cs with
  | nil => rfl
  | cons c cs ih =>
      obtain ⟨hc, hcs⟩ := onLine_cons.1 h
      have hlf : c ≠ '\n' := by
        rintro rfl
        cases hc
      rw [e.apply_cons_other hlf, ih hcs]

/-- No text gets shorter. -/
theorem units_le (cs : List Char) : units cs ≤ units (e.respelling.apply cs) := by
  induction cs with
  | nil => exact Nat.le_refl _
  | cons c cs ih =>
      by_cases hc : c = '\n'
      · subst hc
        have hmark : charUnits '\n' ≤ units e.mark := by cases e <;> decide
        rw [apply_cons_lineFeed, units_append, units_cons]
        omega
      · rw [e.apply_cons_other hc, units_cons, units_cons]
        omega

/-! ### Lines and columns -/

/-- A break by carriage returns alone leaves no line feed. -/
theorem head?_apply_cr (cs : List Char) : (cr.respelling.apply cs).head? ≠ some '\n' := by
  cases cs with
  | nil => decide
  | cons c cs =>
      by_cases hc : c = '\n'
      · subst hc
        exact fun h => absurd (Option.some.inj h) (by decide)
      · rw [cr.apply_cons_other hc, List.head?_cons]
        exact fun h => hc (Option.some.inj h)

/-- A text leads to the same line and column with either ending. -/
theorem past_apply {cs : List Char} (h : '\r' ∉ cs) (p : Position) :
    p.past (e.respelling.apply cs) = p.past cs := by
  induction cs generalizing p with
  | nil => rfl
  | cons c cs ih =>
      obtain ⟨hc, hcs⟩ := not_or.1 (fun hmem => h (List.mem_cons.2 hmem))
      -- Neither text has a two-character break here, except for the one that is written as such.
      have hcrlf : ∀ ds rest, c = '\r' → rest = '\n' :: ds → False := fun _ _ hcr => absurd hcr.symm hc
      rw [Position.past.eq_3 p c cs (hcrlf · cs)]
      by_cases hlf : c = '\n'
      · subst hlf
        rw [if_pos (by decide), ← ih hcs, apply_cons_lineFeed]
        cases e with
        | crlf => rfl
        | cr =>
            have hhead := head?_apply_cr cs
            have hlone : ∀ ds, '\r' = '\r' → cr.respelling.apply cs = '\n' :: ds → False := by
              intro ds _ hds
              exact hhead (by rw [hds]; rfl)
            exact Position.past.eq_3 p '\r' _ hlone
      · rw [e.apply_cons_other hlf, Position.past.eq_3 p c _ (hcrlf · _), ih hcs, ih hcs]

end LineEnding

/-! ### Pieces -/

/-- A piece ends at the position reached over its text. -/
theorem Piece.stop_position {k : Cursor} {cs : List Char} {p : Piece} (hp : p ∈ pieces k cs) :
    p.stop.position = p.start.position.past p.lexeme.text := by
  obtain ⟨front, c, rest, -, -, rfl⟩ := mem_pieces hp
  exact Cursor.advance_position _ _ (scan_not_splitsBreak c rest)

/-- The text of a piece is part of the text. -/
theorem mem_of_mem_lexeme_text {k : Cursor} {cs : List Char} {p : Piece} (hp : p ∈ pieces k cs)
    {c : Char} (hc : c ∈ p.lexeme.text) : c ∈ cs := by
  rw [← flatMap_text_pieces k cs]
  exact List.mem_flatMap_of_mem hp hc

/-- Cursors at one position, whatever their offsets. -/
def Cursor.Level (k k' : Cursor) : Prop := k.position = k'.position

theorem Piece.stop_level {e : LineEnding} {k k' : Cursor} {cs cs' : List Char} (hcr : '\r' ∉ cs)
    {p q : Piece} (hp : p ∈ pieces k cs) (hq : q ∈ pieces k' cs')
    (h : Respelled e.respelling Cursor.Level p q) : p.stop.Level q.stop := by
  have htext : '\r' ∉ p.lexeme.text := fun hmem => hcr (mem_of_mem_lexeme_text hp hmem)
  rw [Cursor.Level, stop_position hp, stop_position hq, h.lexeme, ← h.start]
  exact (e.past_apply htext _).symm

/-- The pieces of a text with another ending are its pieces with this ending, on the same lines and in
the same columns. -/
theorem pieces_endLines (e : LineEnding) {s : String} (hcr : '\r' ∉ s.toList) :
    Forall₂ (Respelled e.respelling Cursor.Level) (piecesOf s) (piecesOf (e.endLines s)) := by
  have htext : (e.endLines s).toList = e.respelling.apply s.toList := String.toList_ofList
  rw [piecesOf, piecesOf, htext]
  exact pieces_respell e.respelling .origin .origin s.toList rfl fun _ hp _ hq h =>
    Piece.stop_level hcr hp hq h

/-! ### Tokens -/

/-- Tokens of one kind that begin and end at one position, and whose texts differ in their line endings
only.  Unless they only separate other tokens, their texts are the same. -/
structure Token.SameButEndings (e : LineEnding) (t u : Token) : Prop where
  kind : t.kind = u.kind
  text : e.endLines t.text = u.text
  line : t.line = u.line
  column : t.column = u.column
  stop : ∃ p, t.endPosition = .ok p ∧ u.endPosition = .ok p
  word : t.kind.isTrivia = false → t.text = u.text

theorem sameWords_sameButEndings (e : LineEnding) : SameWords (Token.SameButEndings e) :=
  fun _ _ h => ⟨h.kind, fun hshown => congrArg asciiLower (h.word hshown)⟩

theorem Token.SameButEndings.exists_span {e : LineEnding} {t u : Token} (h : t.SameButEndings e u) :
    ∃ range, t.span = .ok range ∧ u.span = .ok range := by
  obtain ⟨p, ht, hu⟩ := h.stop
  refine ⟨⟨t.start, p⟩, ?_, ?_⟩
  · rw [Token.span, ht]
    rfl
  · rw [Token.span, hu, start, start, h.line, h.column]
    rfl

section Texts

variable {e : LineEnding} {s : String}

/-- Pieces of texts whose places can be counted, the one with another ending. -/
theorem alike_of_respelled (hcr : '\r' ∉ s.toList)
    (hunits : units (e.endLines s).toList < Counter.placeLimit) {p q : Piece} (hp : p ∈ piecesOf s)
    (hq : q ∈ piecesOf (e.endLines s)) (h : Respelled e.respelling Cursor.Level p q) :
    p.Alike (Token.SameButEndings e) q := by
  have hle : units s.toList ≤ units (e.endLines s).toList := by
    rw [LineEnding.endLines, String.toList_ofList]
    exact e.units_le s.toList
  have hstop : p.stop.position = q.stop.position := Piece.stop_level hcr hp hq h
  have htext : q.lexeme.text = e.respelling.apply p.lexeme.text := congrArg Lexeme.text h.lexeme
  refine ⟨(congrArg Lexeme.fault h.lexeme).symm, (congrArg Lexeme.kind h.lexeme).symm, ?_,
    congrArg Position.line h.start, congrArg Position.column h.start, ⟨p.stop.position, ?_, ?_⟩, ?_⟩
  · rw [LineEnding.endLines, p.token_text, q.token_text, String.toList_ofList, htext]
    rfl
  · exact endPosition_token (hle.trans_lt hunits) hp
  · rw [endPosition_token hunits hq, hstop]
  · intro hshown
    obtain ⟨hblank, hcomment⟩ := isTrivia_eq_false_iff.1 hshown
    rw [p.token_text, q.token_text, htext, e.apply_of_onLine (onLine_of_kind hp hblank hcomment)]

theorem alike_endLines (hcr : '\r' ∉ s.toList)
    (hunits : units (e.endLines s).toList < Counter.placeLimit) :
    Forall₂ (Piece.Alike (Token.SameButEndings e)) (piecesOf s) (piecesOf (e.endLines s)) := by
  refine (forall₂_mem (pieces_endLines e hcr)).imp ?_
  rintro p q ⟨hp, hq, hpq⟩
  exact alike_of_respelled hcr hunits hp hq hpq

end Texts

/-! ### Reports -/

/-- Elements with related results, one by one, have related lists of results. -/
theorem mapM_ok_of_forall₂ {α β ε : Type} {f : α → Except ε β} {P : β → β → Prop} {as bs : List α}
    (h : Forall₂ (fun a b => ∃ x y, f a = .ok x ∧ f b = .ok y ∧ P x y) as bs) :
    ∃ xs ys, as.mapM f = .ok xs ∧ bs.mapM f = .ok ys ∧ Forall₂ P xs ys := by
  induction h with
  | nil => exact ⟨[], [], rfl, rfl, .nil⟩
  | cons hab _ ih =>
      obtain ⟨x, y, hx, hy, hxy⟩ := hab
      obtain ⟨xs, ys, hxs, hys, hrest⟩ := ih
      refine ⟨x :: xs, y :: ys, ?_, ?_, .cons hxy hrest⟩
      · rw [List.mapM_cons, hx, hxs]
        rfl
      · rw [List.mapM_cons, hy, hys]
        rfl

namespace Model

variable {e : LineEnding} {m m' : Model}

/-- Like faults are reported with the same wording and the same range. -/
theorem diagnostics_sameButEndings
    (h : Forall₂ (Fault.Alike (Token.SameButEndings e)) m.faults m'.faults) :
    ∃ ds ds', m.diagnostics = .ok ds ∧ m'.diagnostics = .ok ds' ∧
      Forall₂ (fun d d' => d.message = d'.message ∧ d.range = d'.range) ds ds' := by
  refine mapM_ok_of_forall₂ (h.imp ?_)
  rintro f g ⟨hkind, htoken⟩
  obtain ⟨range, hf, hg⟩ := htoken.exists_span
  refine ⟨⟨range, f.message, .error, f.token.text⟩, ⟨range, g.message, .error, g.token.text⟩, ?_, ?_,
    congrArg Fault.Kind.message hkind, rfl⟩
  · rw [Diagnostic.ofFault, Fault.span, hf]
    rfl
  · rw [Diagnostic.ofFault, Fault.span, hg]
    rfl

theorem outline_of_labels {es : List Outline.Entry} (h : m.labels.mapM Outline.ofLabel = .ok es) :
    m.outline .fresh = .ok (m.fileEntry :: es) := by
  rw [outline, Freshness.visit_fresh]
  show Failure.ofCount (m.labels.mapM Outline.ofLabel) >>= _ = _
  rw [h]
  rfl

/-- Like labels of one document make the same outline. -/
theorem outline_sameButEndings (huri : m.uri = m'.uri)
    (h : Forall₂ (Token.Like (Token.SameButEndings e)) m.labels m'.labels) :
    ∃ es, m.outline .fresh = .ok es ∧ m'.outline .fresh = .ok es := by
  have hlabels : Forall₂ (fun t u => ∃ x y, Outline.ofLabel t = .ok x ∧ Outline.ofLabel u = .ok y ∧
      x = y) m.labels m'.labels := by
    refine h.imp fun t u htu => ?_
    obtain ⟨range, ht, hu⟩ := htu.like.exists_span
    refine ⟨⟨.label, t.text, range⟩, ⟨.label, t.text, range⟩, ?_, ?_, rfl⟩
    · rw [Outline.ofLabel, ht]
      rfl
    · rw [Outline.ofLabel, hu, htu.like.word htu.shown]
      rfl
  obtain ⟨es, es', hes, hes', heq⟩ := mapM_ok_of_forall₂ hlabels
  rw [forall₂_eq_eq_eq] at heq
  subst heq
  have hfile : m'.fileEntry = m.fileEntry := by
    rw [fileEntry, fileEntry, fileName, fileName, huri]
  refine ⟨m.fileEntry :: es, outline_of_labels hes, ?_⟩
  rw [outline_of_labels hes', hfile]

end Model

/-- Variables or labels with the same texts on the same lines and in the same columns. -/
theorem map_place_eq {e : LineEnding} {ts us : List Token}
    (h : Forall₂ (Token.Like (Token.SameButEndings e)) ts us) :
    ts.map (fun t => (t.text, t.line, t.column)) = us.map (fun t => (t.text, t.line, t.column)) := by
  refine map_eq_map_iff_forall₂.2 (h.imp fun t u htu => ?_)
  rw [htu.like.word htu.shown, htu.like.line, htu.like.column]

/-- **Line endings do not matter.**  If every line feed of a text without carriage returns is replaced
by another ending, and the places of the text can still be counted, then the two texts have equally
many tokens, of the same kinds, which begin and end at the same lines and columns and whose texts differ
by this replacement only; the same variables and labels at the same places; diagnostics with the same
wordings and ranges; and the same outline. -/
theorem line_endings_ignored (uri : String) (e : LineEnding) (s : String) (hcr : '\r' ∉ s.toList)
    (hunits : units (e.endLines s).toList < Counter.placeLimit) :
    Forall₂ (Token.SameButEndings e) (tokenize s).1 (tokenize (e.endLines s)).1 ∧
      (let m := Model.parse uri s
      let m' := Model.parse uri (e.endLines s)
      m.vars.map (fun t => (t.text, t.line, t.column))
          = m'.vars.map (fun t => (t.text, t.line, t.column)) ∧
        m.labels.map (fun t => (t.text, t.line, t.column))
          = m'.labels.map (fun t => (t.text, t.line, t.column)) ∧
        (∃ ds ds', m.diagnostics = .ok ds ∧ m'.diagnostics = .ok ds' ∧
          Forall₂ (fun d d' => d.message = d'.message ∧ d.range = d'.range) ds ds') ∧
        ∃ es, m.outline .fresh = .ok es ∧ m'.outline .fresh = .ok es) := by
  have hpieces := alike_endLines hcr hunits
  obtain ⟨hvars, hlabels, hfaults⟩ := parse_alike (sameWords_sameButEndings e) uri uri hpieces
  have huri : (Model.parse uri s).uri = (Model.parse uri (e.endLines s)).uri := by
    rw [Model.parse_uri, Model.parse_uri]
  refine ⟨?_, map_place_eq hvars, map_place_eq hlabels, Model.diagnostics_sameButEndings hfaults,
    Model.outline_sameButEndings huri hlabels⟩
  rw [tokenize_tokens, tokenize_tokens]
  exact rel_map (fun _ _ hpq => hpq.token) hpieces

/-- An unclosed string that the break ends, a comment over two lines, and an `end` too many. -/
theorem line_endings_ignored_comment :
    let s := "lab: x = 'q\n/* a\n */ y = 1\nend"
    let s' := LineEnding.crlf.endLines s
    '\r' ∉ s.toList ∧ units s'.toList < Counter.placeLimit ∧
      s' = "lab: x = 'q\r\n/* a\r\n */ y = 1\r\nend" ∧
      (Model.parse "a" s).vars.map (fun t => (t.text, t.line, t.column)) = [("x", 0, 5), ("y", 2, 4)] ∧
      (Model.parse "a" s').vars.map (fun t => (t.text, t.line, t.column))
        = [("x", 0, 5), ("y", 2, 4)] := by
  intro s s'
  have hcr : '\r' ∉ s.toList := by decide
  have hunits : units s'.toList < Counter.placeLimit := by decide
  have hvars : (Model.parse "a" s).vars.map (fun t => (t.text, t.line, t.column))
      = [("x", 0, 5), ("y", 2, 4)] := by decide +kernel
  have hsame := (line_endings_ignored "a" .crlf s hcr hunits).2.1
  exact ⟨hcr, hunits, by decide, hvars, hsame.symm.trans hvars⟩

end RexxService
