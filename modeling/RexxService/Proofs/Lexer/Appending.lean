import RexxService.Proofs.Lexeme.Munch
import RexxService.Proofs.Lexer.Pieces

/-!
# A text with more lines

A text may stop in the middle of anything.  If a line break and more text follow, all its pieces stay as
they are, where they are, with two exceptions at its very end: blanks there go on with the break, and an
unclosed comment goes on with everything.

* **`GoesOn`** — a lexeme at the end of a text that may not end there if more lines follow;
* **`goesOn_of_unclosedComment`**, **`goesOn_of_reaches`** — unclosed comments do, and so does whatever takes
  in the break;
* **`scan_append_line`** — every other lexeme is read as before;
* **`Piece.extend`** — the piece of a longer text, with the same token, the same fault and, unless it is
  the last one, the same end;
* **`pieces_append_line`** — the pieces of a text, and those of the text with more lines.
-/

namespace RexxService

open RexxService.Text

namespace Lexeme

/-- A lexeme goes on if more lines follow: blanks or an unclosed comment at the end of a text. -/
def GoesOn (x : Lexeme) : Prop :=
  x.rest = [] ∧ (x.kind = .whitespace ∨ x.fault = some .unclosedComment)

instance (x : Lexeme) : Decidable x.GoesOn := inferInstanceAs (Decidable (_ ∧ _))

theorem goesOn_blanks {c : Char} {cs : List Char} (hc : isBlank c = true)
    (hcs : ∀ d ∈ cs, isBlank d = true) : (scan c cs).GoesOn := by
  rw [scan, if_pos hc]
  exact ⟨List.dropWhile_eq_nil_iff.2 hcs, Or.inl rfl⟩

/-- A closed comment is as long in front of more text. -/
theorem comment_text_of_closed {cs body rest : List Char} (h : commentBody 1 cs = some (body, rest))
    (more : List Char) : (comment (cs ++ more)).text = '/' :: '*' :: body := by
  rw [comment, ← commentBody_append h, List.append_assoc, commentBody_stable h]

/-- A comment that reaches over the end of a text goes on. -/
theorem goesOn_comment {cs : List Char} (more : List Char)
    (h : cs.length + 2 < (comment (cs ++ more)).text.length) : (comment cs).GoesOn := by
  cases hbody : commentBody 1 cs with
  | some parts =>
      obtain ⟨body, rest⟩ := parts
      have hlength := congrArg List.length (commentBody_append hbody)
      rw [comment_text_of_closed hbody] at h
      simp only [List.length_append, List.length_cons] at h hlength
      omega
  | none =>
      rw [comment, hbody]
      exact ⟨rfl, Or.inr rfl⟩

/-- An unclosed comment goes on. -/
theorem goesOn_of_unclosedComment {c : Char} {cs : List Char}
    (h : (scan c cs).fault = some .unclosedComment) : (scan c cs).GoesOn := by
  refine ⟨?_, Or.inr h⟩
  revert h
  fun_cases scan c cs with
  | case2 =>
      rw [comment]
      split <;> simp
  | case4 | case5 =>
      rw [quoted, ofQuoted]
      split <;> simp
  | case8 =>
      rw [punctuation]
      split <;> simp
  | _ => simp [number, ofNumber, symbol]

/-- A lexeme that reaches over the break behind a text goes on. -/
theorem goesOn_of_reaches {c : Char} {cs more beyond : List Char}
    (h : (scan c (cs ++ '\n' :: more)).text = c :: (cs ++ '\n' :: beyond)) : (scan c cs).GoesOn := by
  by_cases hblank : isBlank c = true
  · rw [scan, if_pos hblank] at h
    apply goesOn_blanks hblank
    intro d hd
    have hmem : d ∈ (cs ++ '\n' :: more).takeWhile isBlank := by
      rw [(List.cons.inj h).2]
      exact List.mem_append_left _ hd
    exact List.mem_takeWhile_imp hmem
  by_cases hopen : c = '/' ∧ (cs ++ '\n' :: more).head? = some '*'
  · obtain ⟨rfl, hstar⟩ := hopen
    cases cs with
    | nil => simp at hstar
    | cons d es =>
        obtain rfl : d = '*' := by simpa using hstar
        rw [scan, if_neg hblank, if_pos ⟨rfl, hstar⟩, List.cons_append, List.tail_cons] at h
        rw [scan, if_neg hblank, if_pos ⟨rfl, rfl⟩, List.tail_cons]
        apply goesOn_comment ('\n' :: more)
        rw [h]
        simp only [List.length_cons, List.length_append]
        omega
  · -- All other lexemes stay on their line.
    have hline := scan_text_onLine hblank hopen
    rw [h] at hline
    exact absurd (hline '\n' (by simp)) (by decide)

/-- **A lexeme that does not go on is read again in front of more lines.** -/
theorem scan_append_line {c : Char} {cs : List Char} (h : ¬ (scan c cs).GoesOn) (more : List Char) :
    scan c (cs ++ '\n' :: more) = (scan c cs).withRest ((scan c cs).rest ++ '\n' :: more) := by
  obtain ⟨ds, htext, hwhole⟩ := exists_scan_text c (cs ++ '\n' :: more)
  have hback : ∃ back, cs = ds ++ back ∧ (scan c (cs ++ '\n' :: more)).rest = back ++ '\n' :: more := by
    rcases List.append_eq_append_iff.1 hwhole with ⟨beyond, rfl, hbeyond⟩ | hback
    · cases beyond with
      | nil => exact ⟨[], by simp, hbeyond.symm⟩
      | cons d beyond =>
          obtain ⟨rfl, -⟩ := List.cons.inj hbeyond
          exact absurd (goesOn_of_reaches htext) h
    · exact hback
  obtain ⟨back, hcs, hrest⟩ := hback
  -- The longer text is cut off behind the shorter one, which does not change the lexeme.
  have hstable := scan_stable htext (hrest ▸ List.prefix_append back _)
  rw [← hcs] at hstable
  rw [hstable]
  simp only [withRest, ← hrest]

end Lexeme

/-! ### Pieces of a longer text -/

/-- The place behind some characters depends on the character that follows them only. -/
theorem Cursor.advance_of_head? (k : Cursor) (cs : List Char) {rest rest' : List Char}
    (h : rest.head? = rest'.head?) : k.advance cs rest = k.advance cs rest' := by
  induction cs generalizing k with
  | nil => rfl
  | cons c cs ih => rw [advance_cons, advance_cons, h, ih]

namespace Piece

/-- The piece with more text behind it. -/
def extend (more : List Char) (p : Piece) : Piece :=
  ⟨p.lexeme.withRest (p.lexeme.rest ++ more), p.start⟩

@[simp] theorem extend_token (more : List Char) (p : Piece) : (p.extend more).token = p.token := by
  have hstop : (p.extend more).stop.offset = p.stop.offset := by
    rw [stop_offset, stop_offset]
    rfl
  simp only [token, Lexer.place, hstop]
  rfl

@[simp] theorem extend_fault (more : List Char) (p : Piece) : (p.extend more).fault = p.fault := by
  simp only [fault, extend_token]
  rfl

/-- More text moves the end of the last piece only. -/
theorem extend_stop {p : Piece} (h : p.lexeme.rest ≠ []) (more : List Char) :
    (p.extend more).stop = p.stop := by
  apply Cursor.advance_of_head?
  show (p.lexeme.rest ++ more).head? = p.lexeme.rest.head?
  exact List.head?_append_of_ne_nil _ h

end Piece

/-- **More lines leave the pieces of a text as they are**, but for one at its end that goes on. -/
theorem pieces_append_line (k : Cursor) (cs more : List Char) :
    ∃ kept last added, pieces k cs = kept ++ last ∧
      pieces k (cs ++ '\n' :: more) = kept.map (Piece.extend ('\n' :: more)) ++ added ∧
      (∀ p ∈ kept, ¬ p.lexeme.GoesOn) ∧ ∀ p ∈ last, p.lexeme.GoesOn := by
  fun_induction pieces k cs with
  | case1 k => exact ⟨[], [], _, rfl, rfl, by simp, by simp⟩
  | case2 k c cs p ih =>
      by_cases hopen : (Lexeme.scan c cs).GoesOn
      · refine ⟨[], [p], _, ?_, rfl, by simp, by simpa using hopen⟩
        rw [hopen.1, pieces_nil]
        rfl
      · have hfirst : pieces k (c :: cs ++ '\n' :: more) = p.extend ('\n' :: more) ::
            pieces (p.extend ('\n' :: more)).stop ((Lexeme.scan c cs).rest ++ '\n' :: more) := by
          rw [List.cons_append, pieces_cons, Lexeme.scan_append_line hopen]
          rfl
        by_cases hrest : (Lexeme.scan c cs).rest = []
        · refine ⟨[p], [], _, ?_, hfirst, by simpa using hopen, by simp⟩
          rw [hrest, pieces_nil]
          rfl
        · obtain ⟨kept, last, added, hpieces, hlonger, hkept, hlast⟩ := ih
          refine ⟨p :: kept, last, added, by rw [hpieces]; rfl, ?_, ?_, hlast⟩
          · rw [hfirst, Piece.extend_stop hrest, hlonger]
            rfl
          · exact List.forall_mem_cons.2 ⟨hopen, hkept⟩

end RexxService
