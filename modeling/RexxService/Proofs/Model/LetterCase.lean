import RexxService.Proofs.Model.Likeness

/-!
# The analysis ignores the case of letters

Two texts that differ only in the case of the letters `A` to `Z` are cut into tokens at the same places,
and the same is found in them.  Both are compared with the text in lowercase, whose pieces are the
pieces of either text in lowercase (`pieces_asciiLower`).

* **`Respelling.lower`** — lowercasing as a spelling, which moves no place (`advance_toLower`);
* **`SameButCase`** — tokens at one place that differ in the case of letters only;
* **`letter_case_ignored`** — tokens, variables, labels and faults of the two texts.
-/

namespace RexxService

open RexxService.Text RexxService.Lexeme List

def Lexeme.Respelling.lower : Respelling where
  spell := fun c => [c.toLower]
  lineFeed := ⟨List.cons_ne_nil _ _, List.forall_mem_singleton.2 (by decide)⟩
  other := fun c _ => ⟨c.toLower, rfl, toLower_toLower c⟩

theorem apply_lower (cs : List Char) : Respelling.lower.apply cs = cs.map Char.toLower := by
  induction cs with
  | nil => rfl
  | cons c cs ih => rw [Respelling.apply_cons, ih, List.map_cons]; rfl

/-! ### Places -/

namespace Cursor

theorem step_toLower (k : Cursor) (c : Char) (next : Option Char) :
    k.step c.toLower (next.map Char.toLower) = k.step c next := by
  have hnext : next.map Char.toLower = some '\n' ↔ next = some '\n' := by
    cases next with
    | none => simp
    | some d =>
        have hd := apply_toLower (fun c => decide (c = '\n')) (by decide) d
        simpa using hd
  have hlf : c.toLower = '\n' ↔ c = '\n' := by
    simpa using apply_toLower (fun c => decide (c = '\n')) (by decide) c
  have hcr : c.toLower = '\r' ↔ c = '\r' := by
    simpa using apply_toLower (fun c => decide (c = '\r')) (by decide) c
  have hunits : charUnits c.toLower = charUnits c := apply_toLower charUnits (by decide) c
  simp only [step, positionAfter, hnext, hlf, hcr, hunits]

/-- A text and its lowercase form take up the same places. -/
theorem advance_toLower (k : Cursor) (cs rest : List Char) :
    k.advance (cs.map Char.toLower) (rest.map Char.toLower) = k.advance cs rest := by
  induction cs generalizing k with
  | nil => rfl
  | cons c cs ih =>
      have hnext : (cs.map Char.toLower).head?.or (rest.map Char.toLower).head?
          = (cs.head?.or rest.head?).map Char.toLower := by
        rw [List.head?_map, List.head?_map]
        cases cs.head? with
        | none => rfl
        | some d => rfl
      rw [List.map_cons, advance_cons, advance_cons, hnext, step_toLower, ih]

end Cursor

/-! ### Pieces -/

def Piece.lower (p : Piece) : Piece := ⟨p.lexeme.respell .lower, p.start⟩

theorem Piece.lower_stop (p : Piece) : p.lower.stop = p.stop := by
  rw [stop, stop]
  show p.start.advance (Respelling.lower.apply _) (Respelling.lower.apply _) = _
  rw [apply_lower, apply_lower, Cursor.advance_toLower]

/-- The pieces of a text in lowercase are its pieces in lowercase. -/
theorem pieces_asciiLower (s : String) : (piecesOf s).map Piece.lower = piecesOf (asciiLower s) := by
  have hstop : ∀ p ∈ pieces .origin s.toList, ∀ q ∈ pieces .origin (Respelling.lower.apply s.toList),
      Respelled .lower Eq p q → p.stop = q.stop := by
    intro p _ q _ hpq
    have hq : p.lower = q := by
      rw [Piece.lower, ← hpq.lexeme, hpq.start]
    rw [← hq, p.lower_stop]
  have hpieces := pieces_respell .lower .origin .origin s.toList rfl hstop
  have htext : (asciiLower s).toList = Respelling.lower.apply s.toList := by
    rw [asciiLower, String.toList_ofList, apply_lower]
  rw [piecesOf, piecesOf, htext, ← forall₂_eq_eq_eq, forall₂_map_left_iff]
  refine hpieces.imp fun p q hpq => ?_
  rw [Piece.lower, ← hpq.lexeme, hpq.start]

/-! ### Tokens -/

/-- Tokens of one kind at one place whose texts differ in the case of letters only. -/
structure Token.SameButCase (t u : Token) : Prop where
  kind : t.kind = u.kind
  text : asciiLower t.text = asciiLower u.text
  line : t.line = u.line
  column : t.column = u.column
  offset : t.offset = u.offset
  endOffset : t.endOffset = u.endOffset

theorem sameWords_sameButCase : SameWords Token.SameButCase :=
  fun _ _ h => ⟨h.kind, fun _ => h.text⟩

/-- Pieces with one lowercase form have tokens that differ in the case of letters only. -/
theorem alike_of_lower_eq {p q : Piece} (h : p.lower = q.lower) : p.Alike Token.SameButCase q := by
  obtain ⟨hlexeme, hstart⟩ := Piece.mk.inj h
  have hstop : p.stop = q.stop := by rw [← p.lower_stop, h, q.lower_stop]
  have hkind : p.lexeme.kind = q.lexeme.kind := by simpa using congrArg Lexeme.kind hlexeme
  have hfault : p.lexeme.fault = q.lexeme.fault := by simpa using congrArg Lexeme.fault hlexeme
  have htext : p.lexeme.text.map Char.toLower = q.lexeme.text.map Char.toLower := by
    simpa [apply_lower] using congrArg Lexeme.text hlexeme
  refine ⟨hfault, hkind, ?_, congrArg (fun k => k.position.line) hstart,
    congrArg (fun k => k.position.column) hstart, congrArg Cursor.offset hstart,
    congrArg Cursor.offset hstop⟩
  rw [asciiLower, asciiLower, p.token_text, q.token_text, String.toList_ofList, String.toList_ofList,
    htext]

/-- **The analysis ignores the case of letters.**  If two texts become equal when the letters `A` to `Z`
are lowercased, then their tokens agree one by one in kind, line, column and both offsets, and so do the
faults of the lexer, the variables, the labels and the faults of the parsed texts, in the same order. -/
theorem letter_case_ignored (uri : String) {s s' : String} (h : asciiLower s = asciiLower s') :
    Forall₂ Token.SameButCase (tokenize s).1 (tokenize s').1 ∧
      Forall₂ (Fault.Alike Token.SameButCase) (tokenize s).2 (tokenize s').2 ∧
      Forall₂ Token.SameButCase (Model.parse uri s).vars (Model.parse uri s').vars ∧
      Forall₂ Token.SameButCase (Model.parse uri s).labels (Model.parse uri s').labels ∧
      Forall₂ (Fault.Alike Token.SameButCase) (Model.parse uri s).faults
        (Model.parse uri s').faults := by
  have hpieces : Forall₂ (Piece.Alike Token.SameButCase) (piecesOf s) (piecesOf s') := by
    have hlower : (piecesOf s).map Piece.lower = (piecesOf s').map Piece.lower := by
      rw [pieces_asciiLower, pieces_asciiLower, h]
    exact (map_eq_map_iff_forall₂.1 hlower).imp fun _ _ => alike_of_lower_eq
  obtain ⟨hvars, hlabels, hfaults⟩ := parse_alike sameWords_sameButCase uri uri hpieces
  refine ⟨?_, forall₂_tokenize_faults hpieces, hvars.imp fun _ _ => Token.Like.like,
    hlabels.imp fun _ _ => Token.Like.like, hfaults⟩
  rw [tokenize_tokens, tokenize_tokens]
  exact rel_map (fun _ _ hpq => hpq.token) hpieces

/-- A sigma between letters in either case, a function name that is a label, and an unclosed string. -/
theorem letter_case_ignored_sigma :
    let s := "Say: ΑΣx = 1E2\nPARSE Arg aΣ 'Q"
    let s' := "sAY: ΑΣX = 1e2\nparse aRG AΣ 'q"
    asciiLower s = asciiLower s' ∧
      (Model.parse "a" s).vars.map (·.text) = ["aΣ", "ΑΣx"] ∧
      (Model.parse "a" s').vars.map (·.text) = ["AΣ", "ΑΣX"] ∧
      Forall₂ Token.SameButCase (Model.parse "a" s).vars (Model.parse "a" s').vars := by
  intro s s'
  have h : asciiLower s = asciiLower s' := by decide
  have hvars : (Model.parse "a" s).vars.map (·.text) = ["aΣ", "ΑΣx"] := by decide +kernel
  have hvars' : (Model.parse "a" s').vars.map (·.text) = ["AΣ", "ΑΣX"] := by decide +kernel
  exact ⟨h, hvars, hvars', (letter_case_ignored "a" h).2.2.1⟩

end RexxService
