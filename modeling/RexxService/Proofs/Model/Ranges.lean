import RexxService.Message
import RexxService.Proofs.Completion.Items
import RexxService.Proofs.Lexer.Slices
import RexxService.Proofs.Model.Lookup
import RexxService.Proofs.Symbols.Occurrences

/-!
# Ranges name their texts

Whatever is reported about a text is reported at one of its tokens.  The range is the span of that
token, and the text that goes with it is the text of the token, so the range cuts just this text out.

* **`token_of_mem_vars`**, **`token_of_mem_labels`**, **`token_of_mem_faults`** — names are tokens of the
  text, and faults stand at tokens of it;
* **`exists_span`** — the span of a token can be counted, and names the text of the token;
* **`diagnostics_parse`** — a text whose places can be counted has diagnostics;
* **`onLine_of_kind`** — a token that is neither blank nor a comment is on one line;
* **`ranges_name_text`** — diagnostics, outline and completion of a text whose places can be counted.
-/

namespace RexxService

open RexxService.Text RexxService.Lexeme

/-! ### What is found stands at tokens -/

namespace Model

theorem token_of_mem_significant {text : String} {t : Token}
    (h : t ∈ significant ((piecesOf text).map Piece.token)) : ∃ p ∈ piecesOf text, t = p.token := by
  obtain ⟨p, hp, rfl⟩ := List.mem_map.1 (List.mem_filter.1 h).1
  exact ⟨p, hp, rfl⟩

/-- A variable is a token of the text. -/
theorem token_of_mem_vars {uri text : String} {t : Token} (h : t ∈ (parse uri text).vars) :
    ∃ p ∈ piecesOf text, t = p.token := by
  rw [parse_vars] at h
  exact token_of_mem_significant ((Collector.mem_vars_sweep_iff _ t).1 h).mem

/-- A label is a token of the text. -/
theorem token_of_mem_labels {uri text : String} {t : Token} (h : t ∈ (parse uri text).labels) :
    ∃ p ∈ piecesOf text, t = p.token := by
  rw [parse_labels] at h
  exact token_of_mem_significant ((Collector.mem_labels_sweep_iff _ t).1 h).mem

theorem token_of_mem_tokens {uri text : String} {t : Token} (h : t ∈ (parse uri text).tokens) :
    ∃ p ∈ piecesOf text, t = p.token := by
  rw [← Array.mem_toList_iff, parse_tokens] at h
  obtain ⟨p, hp, rfl⟩ := List.mem_map.1 h
  exact ⟨p, hp, rfl⟩

/-- A fault stands at a token of the text. -/
theorem token_of_mem_faults {uri text : String} {f : Fault} (h : f ∈ (parse uri text).faults) :
    ∃ p ∈ piecesOf text, f.token = p.token := by
  have hriffle : ((riffle [] (piecesOf text)).map Fault.token).Sublist
      ((piecesOf text).map Piece.token) :=
    riffle_sublist [] (piecesOf text) fun p hp => fault_of_keyword hp
  have htoken : f.token ∈ (piecesOf text).map Piece.token := by
    rw [parse_faults] at h
    rcases List.mem_append.1 h with hf | hf
    · exact hriffle.subset (List.mem_map_of_mem hf)
    · obtain ⟨t, ht, rfl⟩ := List.mem_map.1 hf
      exact (reverse_blocks_collected text).subset ht
  obtain ⟨p, hp, heq⟩ := List.mem_map.1 htoken
  exact ⟨p, hp, heq.symm⟩

end Model

/-! ### The span of a token -/

theorem span_token {text : String} (h : units text.toList < Counter.placeLimit) {p : Piece}
    (hp : p ∈ piecesOf text) : p.token.span = .ok ⟨p.start.position, p.stop.position⟩ := by
  rw [Token.span, endPosition_token h hp]
  rfl

/-- The span of a token can be counted, and names the text of the token. -/
theorem exists_span {text : String} (h : units text.toList < Counter.placeLimit) {p : Piece}
    (hp : p ∈ piecesOf text) :
    ∃ range, p.token.span = .ok range ∧ slice text range = p.token.text :=
  ⟨_, span_token h hp, slice_piece hp⟩

/-- A token can be compared with every position. -/
theorem exists_contains_token {text : String} (h : units text.toList < Counter.placeLimit) {p : Piece}
    (hp : p ∈ piecesOf text) (place : Position) : ∃ b, p.token.contains place = .ok b := by
  have hlimits : Counter.placeLimit + Counter.placeLimit ≤ Counter.offsetLimit := by decide
  have hstop := stop_offset_le hp
  have hstart := Piece.start_lt_stop hp
  refine Token.exists_contains hstart.le ?_ place
  obtain ⟨front, back, htext, hk⟩ := Piece.start_isPlaceOf hp
  rw [htext] at h
  have hcolumn := (Cursor.inRange_advance h).column
  rw [← hk] at hcolumn
  rw [htext] at hstop
  have horigin : Cursor.origin.offset = 0 := rfl
  show p.start.position.column + (p.stop.offset - p.start.offset) < _
  omega

theorem ne_whitespace_of_not_opening {kind : Token.Kind} (h : kind.isOpening = false) :
    kind ≠ .whitespace := by
  rintro rfl
  cases h

theorem isTrivia_eq_false_iff {kind : Token.Kind} :
    kind.isTrivia = false ↔ kind ≠ .whitespace ∧ kind.isComment = false := by
  cases kind <;> simp [Token.Kind.isTrivia, Token.Kind.isComment]

theorem comment_kind (cs : List Char) : (comment cs).kind.isComment = true := by
  rw [comment]
  split <;> rfl

/-- A token that is neither blank nor a comment is on one line. -/
theorem onLine_of_kind {k : Cursor} {cs : List Char} {p : Piece} (hp : p ∈ pieces k cs)
    (hblank : p.token.kind ≠ .whitespace) (hcomment : p.token.kind.isComment = false) :
    OnLine p.lexeme.text := by
  obtain ⟨front, c, rest, -, -, rfl⟩ := mem_pieces hp
  rw [Piece.token_kind] at hblank hcomment
  refine scan_text_onLine ?_ ?_
  · intro hc
    rw [scan, if_pos hc] at hblank
    exact hblank rfl
  · rintro ⟨rfl, hnext⟩
    rw [scan, if_neg (by decide), if_pos ⟨rfl, hnext⟩, comment_kind] at hcomment
    cases hcomment

theorem Position.past_of_onLine {cs : List Char} (h : OnLine cs) (p : Position) :
    p.past cs = p.right (units cs) := by
  induction cs generalizing p with
  | nil => rfl
  | cons c cs ih =>
      obtain ⟨hc, hcs⟩ := onLine_cons.1 h
      have hcrlf : ∀ ds, c = '\r' → cs = '\n' :: ds → False := by
        rintro ds rfl
        cases hc
      rw [past.eq_3 _ _ _ hcrlf, if_neg (by rw [hc]; exact Bool.false_ne_true), ih hcs, units_cons,
        right, right, right, Nat.add_assoc]

/-- Such a token ends on the line where it begins. -/
theorem stop_of_onLine {p : Piece} (h : OnLine p.lexeme.text) :
    p.stop.position = p.start.position.right (units p.lexeme.text) := by
  rw [← Position.past_of_onLine h]
  exact Cursor.advance_position _ _ (not_splitsBreak_of_onLine h _)

/-! ### Reports -/

/-- If every element has a result, so has the list. -/
theorem mapM_ok_of_forall {α β ε : Type} {f : α → Except ε β} {xs : List α}
    (h : ∀ x ∈ xs, ∃ y, f x = .ok y) : ∃ ys, xs.mapM f = .ok ys := by
  induction xs with
  | nil => exact ⟨[], rfl⟩
  | cons x xs ih =>
      obtain ⟨y, hy⟩ := h x List.mem_cons_self
      obtain ⟨ys, hys⟩ := ih fun z hz => h z (List.mem_cons_of_mem x hz)
      refine ⟨y :: ys, ?_⟩
      rw [List.mapM_cons, hy, hys]
      rfl

/-- The results of a list are results of its elements. -/
theorem mem_of_mapM_ok {α β ε : Type} {f : α → Except ε β} {xs : List α} {ys : List β} {y : β}
    (h : xs.mapM f = .ok ys) (hy : y ∈ ys) : ∃ x ∈ xs, f x = .ok y := by
  induction xs generalizing ys with
  | nil =>
      obtain rfl := Except.ok.inj h
      cases hy
  | cons x xs ih =>
      rw [List.mapM_cons] at h
      obtain ⟨z, hz, h⟩ := exists_of_bind_ok h
      obtain ⟨zs, hzs, h⟩ := exists_of_bind_ok h
      obtain rfl := Except.ok.inj h
      rcases List.mem_cons.1 hy with rfl | hy
      · exact ⟨x, List.mem_cons_self, hz⟩
      · obtain ⟨x', hx', hfx⟩ := ih hzs hy
        exact ⟨x', List.mem_cons_of_mem x hx', hfx⟩

namespace Model

open Completion

/-- A text whose places can be counted has diagnostics. -/
theorem diagnostics_parse (uri : String) {text : String}
    (h : units text.toList < Counter.placeLimit) :
    ∃ ds, (parse uri text).diagnostics = .ok ds := by
  refine mapM_ok_of_forall fun f hf => ?_
  obtain ⟨p, hp, htoken⟩ := token_of_mem_faults hf
  refine ⟨⟨⟨p.start.position, p.stop.position⟩, f.message, .error, f.token.text⟩, ?_⟩
  rw [Diagnostic.ofFault, Fault.span, htoken, span_token h hp]
  rfl

variable {uri text : String}

theorem diagnostics_name_text (h : units text.toList < Counter.placeLimit) :
    ∃ ds, (parse uri text).diagnostics = .ok ds ∧ ∀ d ∈ ds, slice text d.range = d.source := by
  obtain ⟨ds, hds⟩ := diagnostics_parse uri h
  refine ⟨ds, hds, fun d hd => ?_⟩
  obtain ⟨f, hf, hd⟩ := mem_of_mapM_ok hds hd
  obtain ⟨p, hp, htoken⟩ := token_of_mem_faults hf
  obtain ⟨range, hspan, hslice⟩ := exists_span h hp
  rw [Diagnostic.ofFault, Fault.span, htoken, hspan] at hd
  obtain rfl := Except.ok.inj hd
  exact hslice

theorem outline_name_text (h : units text.toList < Counter.placeLimit) :
    ∃ es, (parse uri text).outline .fresh = .ok es ∧
      ∀ e ∈ es, e.kind = .label → slice text e.range = e.name := by
  have hlabel : ∀ t ∈ (parse uri text).labels,
      ∃ range, Outline.ofLabel t = .ok ⟨.label, t.text, range⟩ ∧ slice text range = t.text := by
    intro t ht
    obtain ⟨p, hp, rfl⟩ := token_of_mem_labels ht
    obtain ⟨range, hspan, hslice⟩ := exists_span h hp
    exact ⟨range, by rw [Outline.ofLabel, hspan]; rfl, hslice⟩
  obtain ⟨es, hes⟩ := mapM_ok_of_forall fun t ht =>
    let ⟨_, hentry, _⟩ := hlabel t ht
    ⟨_, hentry⟩
  refine ⟨fileEntry (parse uri text) :: es, ?_, ?_⟩
  · rw [outline, Freshness.visit_fresh]
    show Failure.ofCount ((parse uri text).labels.mapM Outline.ofLabel) >>= _ = _
    rw [hes]
    rfl
  · intro e he hkind
    rcases List.mem_cons.1 he with rfl | he
    · cases hkind
    · obtain ⟨t, ht, hentry⟩ := mem_of_mapM_ok hes he
      obtain ⟨range, hlabelled, hslice⟩ := hlabel t ht
      obtain rfl := Except.ok.inj (hlabelled.symm.trans hentry)
      exact hslice

/-- The prompt after a token that is not empty space has the text of the token and names it. -/
theorem prompt_names_text (h : units text.toList < Counter.placeLimit) {p : Piece}
    (hp : p ∈ piecesOf text) (hopening : p.token.kind.isOpening = false)
    (hcomment : p.token.kind.isComment = false) (place : Position) :
    ∃ q, promptAt p.token place = .ok q ∧ q.unrestricted = false ∧ q.typed = p.token.text ∧
      slice text q.range = p.token.text ∧ q.range.start.line = q.range.stop.line := by
  refine ⟨⟨p.token.text, false, ⟨p.start.position, p.stop.position⟩⟩, ?_, rfl, rfl, slice_piece hp, ?_⟩
  · rw [promptAt_of_not_opening hopening, span_token h hp]
    rfl
  · show p.start.position.line = p.stop.position.line
    rw [stop_of_onLine (onLine_of_kind hp (ne_whitespace_of_not_opening hopening) hcomment)]
    rfl

/-- Completion always comes to an end, and every item comes from a prompt. -/
theorem complete_name_text (h : units text.toList < Counter.placeLimit) (place : Position)
    (mode : Matching) :
    ∃ items, (parse uri text).complete .fresh place mode = .ok items ∧
      ∀ item ∈ items, ∃ t, (parse uri text).anchor place = .ok (some t) ∧
        (t.kind.isOpening = false → item.range.start.line = item.range.stop.line ∧
          slice text item.range = t.text ∧
          Matched (parse uri text) mode (slice text item.range) item) := by
  have hcontains : ∀ t ∈ (parse uri text).tokens, ∃ b, t.contains place = .ok b := by
    intro t ht
    obtain ⟨p, hp, rfl⟩ := token_of_mem_tokens ht
    exact exists_contains_token h hp place
  obtain ⟨found, hanchor, hfound⟩ := exists_anchor hcontains
  cases found with
  | none => exact ⟨[], complete_of_none hanchor mode, fun item hitem => nomatch hitem⟩
  | some t =>
  cases hcomment : t.kind.isComment with
  | true => exact ⟨[], complete_of_comment hanchor hcomment mode, fun item hitem => nomatch hitem⟩
  | false =>
  cases hopening : t.kind.isOpening with
  | true =>
      refine ⟨_, complete_of_prompt hanchor hcomment (promptAt_of_opening hopening) mode, ?_⟩
      intro item _
      refine ⟨t, hanchor, fun hnot => ?_⟩
      rw [hopening] at hnot
      cases hnot
  | false =>
      obtain ⟨p, hp, rfl⟩ := token_of_mem_tokens (hfound t rfl)
      obtain ⟨q, hq, hrestricted, htyped, hslice, hline⟩ :=
        prompt_names_text h hp hopening hcomment place
      refine ⟨_, complete_of_prompt hanchor hcomment hq mode, fun item hitem => ?_⟩
      have hrange := (Prompt.mem_offered.1 hitem).1
      have hmatched := matched_of_mem_offered hitem hrestricted
      rw [hrange, hslice, ← htyped]
      exact ⟨p.token, hanchor, fun _ => ⟨hline, htyped, hmatched⟩⟩

end Model

/-- **Reported ranges address exactly the text they name.**  For every text whose places can be counted,
diagnostics, outline and, at any position and in both modes, completion come to an end without an
overflow.  The range of a diagnostic cuts out the text at fault, and that of a label its name.  An item
of completion has an anchor; unless this is blank or an opening parenthesis, the range of the item is
on a single line and cuts out the text of the anchor, and this is the text that the item matches. -/
theorem ranges_name_text (uri text : String) (h : units text.toList < Counter.placeLimit) :
    (∃ ds, (Model.parse uri text).diagnostics = .ok ds ∧
      ∀ d ∈ ds, slice text d.range = d.source) ∧
    (∃ es, (Model.parse uri text).outline .fresh = .ok es ∧
      ∀ e ∈ es, e.kind = .label → slice text e.range = e.name) ∧
    ∀ (place : Position) (mode : Matching),
      ∃ items, (Model.parse uri text).complete .fresh place mode = .ok items ∧
        ∀ item ∈ items, ∃ t, (Model.parse uri text).anchor place = .ok (some t) ∧
          (t.kind.isOpening = false → item.range.start.line = item.range.stop.line ∧
            slice text item.range = t.text ∧
            Completion.Matched (Model.parse uri text) mode (slice text item.range) item) :=
  ⟨Model.diagnostics_name_text h, Model.outline_name_text h, Model.complete_name_text h⟩

/-- An unclosed string with a character of two units, ended by a break of two characters, and a word
that is completed on the line below. -/
theorem ranges_name_text_two_lines :
    let text := "lab: x = '😀\r\nsa"
    let m := Model.parse "a" text
    units text.toList < Counter.placeLimit ∧
      m.diagnostics.toOption = some [⟨⟨⟨0, 9⟩, ⟨0, 12⟩⟩, "Unclosed string", .error, "'😀"⟩] ∧
      slice text ⟨⟨0, 9⟩, ⟨0, 12⟩⟩ = "'😀" ∧
      (m.complete .fresh ⟨1, 2⟩ .caseSensitive).toOption = some [⟨.keyword, "say", ⟨⟨1, 0⟩, ⟨1, 2⟩⟩⟩] ∧
      slice text ⟨⟨1, 0⟩, ⟨1, 2⟩⟩ = "sa" := by
  intro text m
  have hunits : units text.toList < Counter.placeLimit := by decide
  have hdiagnostics :
      m.diagnostics.toOption = some [⟨⟨⟨0, 9⟩, ⟨0, 12⟩⟩, "Unclosed string", .error, "'😀"⟩] := by
    decide +kernel
  have hcomplete : (m.complete .fresh ⟨1, 2⟩ .caseSensitive).toOption
      = some [⟨.keyword, "say", ⟨⟨1, 0⟩, ⟨1, 2⟩⟩⟩] := by decide +kernel
  have hanchor : (m.anchor ⟨1, 2⟩).toOption = some (some ⟨.identifier, "sa", 1, 0, 14, 16⟩) := by
    decide +kernel
  obtain ⟨⟨ds, hds, hsource⟩, -, hitems⟩ := ranges_name_text "a" text hunits
  obtain ⟨items, hitems, htyped⟩ := hitems ⟨1, 2⟩ .caseSensitive
  refine ⟨hunits, hdiagnostics, ?_, hcomplete, ?_⟩
  · obtain rfl := Option.some.inj ((congrArg Except.toOption hds).symm.trans hdiagnostics)
    exact hsource _ List.mem_cons_self
  · obtain rfl := Option.some.inj ((congrArg Except.toOption hitems).symm.trans hcomplete)
    obtain ⟨t, ht, htext⟩ := htyped _ List.mem_cons_self
    obtain rfl := Option.some.inj (Option.some.inj ((congrArg Except.toOption ht).symm.trans hanchor))
    exact (htext rfl).2.1

end RexxService
