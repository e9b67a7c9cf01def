import Mathlib.Data.List.Chain
import RexxService.Lexer
import RexxService.Proofs.Lexeme.LineBreaks

/-!
# A text cut into pieces

What the lexer hands out is determined by the text and by the place where reading begins.  A `Piece` is
a lexeme together with the place where it was read; its token, its fault and the place behind it
follow from these two.

* **`pieces`** — the pieces of a text, read from a place on;
* **`drain_tokens`**, **`drain_faults`** — draining a lexer gives the tokens of the pieces of its
  input, and adds their faults to those it holds;
* **`mem_pieces`** — every piece is what `scan` reads at some split of the text that is not inside a
  line break, and it stands where a cursor gets to that has gone over all that is in front of it;
* **`isChain_pieces`** — each piece begins where the one before it stops;
* **`scan_fault`** — whether a lexeme is faulty, and how, can be seen from its kind and its text: what is
  not closed has a kind of its own, and so has what begins nothing.

Everything about positions is read off `Cursor.advance`, which is additive (`advance_append`), so no
later proof has to follow the lexer through a text again.
-/

namespace RexxService

open RexxService.Text

/-! ### Faults of lexemes -/

namespace Lexeme

/-- The fault of a token, by its kind and its text. -/
def faultFor (kind : Token.Kind) (text : List Char) : Option Fault.Kind :=
  match kind with
  | .commentUnclosed => some .unclosedComment
  | .singleQuotedUnclosed | .doubleQuotedUnclosed => some .unclosedString
  | .invalid => if text = ['*', '/'] then some .unmatchedEndComment else some .illegalCharacter
  | _ => none

theorem comment_fault (cs : List Char) :
    (comment cs).fault = faultFor (comment cs).kind (comment cs).text := by
  rw [comment]
  split <;> rfl

theorem quoted_fault {closed unclosed : Token.Kind} (quote : Char) (cs : List Char)
    (hclosed : ∀ text, faultFor closed text = none)
    (hunclosed : ∀ text, faultFor unclosed text = some .unclosedString) :
    (quoted quote closed unclosed cs).fault
      = faultFor (quoted quote closed unclosed cs).kind (quoted quote closed unclosed cs).text := by
  show (if (quotedBody quote cs).closed then none else some Fault.Kind.unclosedString)
    = faultFor (if (quotedBody quote cs).closed then closed else unclosed) _
  cases (quotedBody quote cs).closed with
  | true => exact (hclosed _).symm
  | false => exact (hunclosed _).symm

theorem classify_fault (word : String) (text : List Char) :
    faultFor (Vocabulary.classify word) text = none := by
  rw [Vocabulary.classify]
  split
  · rfl
  · split <;> rfl

theorem symbol_fault (cs : List Char) :
    (symbol cs).fault = faultFor (symbol cs).kind (symbol cs).text := by
  simp only [symbol, classify_fault]

theorem punctuation_fault (c : Char) (cs : List Char) :
    (punctuation c cs).fault = faultFor (punctuation c cs).kind (punctuation c cs).text := by
  have hoperators : operators.all (fun o => faultFor o.2 o.1 == none) = true := by decide
  rw [punctuation]
  split
  · rename_i spelling kind h
    have hkind := List.all_eq_true.1 hoperators _ (List.mem_of_find?_eq_some h)
    exact (eq_of_beq hkind).symm
  · show some Fault.Kind.illegalCharacter = if [c] = ['*', '/'] then _ else _
    rw [if_neg (by simp)]

/-- The kind and the text of a lexeme tell its fault. -/
theorem scan_fault (c : Char) (cs : List Char) :
    (scan c cs).fault = faultFor (scan c cs).kind (scan c cs).text := by
  fun_cases scan c cs with
  | case1 => rfl
  | case2 => exact comment_fault _
  | case3 => rfl
  | case4 => exact quoted_fault _ _ (fun _ => rfl) (fun _ => rfl)
  | case5 => exact quoted_fault _ _ (fun _ => rfl) (fun _ => rfl)
  | case6 => rfl
  | case7 => exact symbol_fault (c :: cs)
  | case8 => exact punctuation_fault c cs

end Lexeme

/-! ### Going over a text -/

namespace Cursor

/-- Going over two texts in turn is going over both at once. -/
theorem advance_append (k : Cursor) (cs ds rest : List Char) :
    k.advance (cs ++ ds) rest = (k.advance cs (ds ++ rest)).advance ds rest := by
  induction cs generalizing k with
  | nil => rfl
  | cons c cs ih =>
      have hnext : (cs ++ ds).head?.or rest.head? = cs.head?.or (ds ++ rest).head? := by
        rw [List.head?_append, List.head?_append, Option.or_assoc]
      rw [List.cons_append, advance_cons, advance_cons, hnext]
      exact ih _

end Cursor

/-- A lexeme and the place where it was read. -/
structure Piece where
  lexeme : Lexeme
  start : Cursor
deriving DecidableEq, Repr

namespace Piece

def stop (p : Piece) : Cursor := p.start.advance p.lexeme.text p.lexeme.rest

def token (p : Piece) : Token := Lexer.place p.lexeme p.start p.stop

def fault (p : Piece) : Option Fault := Lexer.faultOf p.lexeme p.token

@[simp] theorem token_kind (p : Piece) : p.token.kind = p.lexeme.kind := rfl

@[simp] theorem token_text (p : Piece) : p.token.text = String.ofList p.lexeme.text := rfl

@[simp] theorem token_start (p : Piece) : p.token.start = p.start.position := rfl

@[simp] theorem token_offset (p : Piece) : p.token.offset = p.start.offset := rfl

@[simp] theorem token_endOffset (p : Piece) : p.token.endOffset = p.stop.offset := rfl

/-- A piece takes up as many units as its text has. -/
theorem stop_offset (p : Piece) : p.stop.offset = p.start.offset + units p.lexeme.text :=
  Cursor.advance_offset _ _ _

/-- A fault is a fault of the piece's own token. -/
theorem fault_token {p : Piece} {f : Fault} (h : p.fault = some f) : f.token = p.token := by
  obtain ⟨kind, -, rfl⟩ := Option.map_eq_some_iff.1 h
  rfl

end Piece

theorem filterMap_fault_cons (p : Piece) (ps : List Piece) :
    (p :: ps).filterMap Piece.fault = p.fault.toList ++ ps.filterMap Piece.fault := by
  rw [List.filterMap_cons]
  cases p.fault with
  | none => rfl
  | some f => rfl

/-- The pieces of a text, read from a place on. -/
def pieces (k : Cursor) (cs : List Char) : List Piece :=
  match cs with
  | [] => []
  | c :: cs =>
      let p : Piece := ⟨Lexeme.scan c cs, k⟩
      p :: pieces p.stop (Lexeme.scan c cs).rest
termination_by cs.length
decreasing_by exact Lexeme.length_scan_rest_lt c cs

@[simp] theorem pieces_nil (k : Cursor) : pieces k [] = [] := by
  rw [pieces]

theorem pieces_cons (k : Cursor) (c : Char) (cs : List Char) :
    pieces k (c :: cs) = ⟨Lexeme.scan c cs, k⟩ ::
      pieces (Piece.stop ⟨Lexeme.scan c cs, k⟩) (Lexeme.scan c cs).rest := by
  rw [pieces]

/-! ### The lexer hands out the pieces of its input -/

namespace Lexer

def past (l : Lexer) (p : Piece) : Lexer := ⟨p.lexeme.rest, p.stop, hold l.held p.fault⟩

theorem next_of_nil {l : Lexer} (h : l.input = []) : l.next = none := by
  rw [next, h]

theorem next_of_cons {l : Lexer} {c : Char} {cs : List Char} (h : l.input = c :: cs) :
    l.next = some (Piece.token ⟨Lexeme.scan c cs, l.cursor⟩,
      l.past ⟨Lexeme.scan c cs, l.cursor⟩) := by
  rw [next, h]
  rfl

theorem drain_of_nil {l : Lexer} (h : l.input = []) : l.drain = ([], l) := by
  rw [drain]
  split
  · rfl
  · rename_i hnext
    rw [next_of_nil h] at hnext
    cases hnext

theorem drain_of_cons {l : Lexer} {c : Char} {cs : List Char} (h : l.input = c :: cs) :
    l.drain = (Piece.token ⟨Lexeme.scan c cs, l.cursor⟩ ::
        (l.past ⟨Lexeme.scan c cs, l.cursor⟩).drain.1,
      (l.past ⟨Lexeme.scan c cs, l.cursor⟩).drain.2) := by
  rw [drain]
  split
  · rename_i hnext
    rw [next_of_cons h] at hnext
    cases hnext
  · rename_i hnext
    rw [next_of_cons h] at hnext
    cases hnext
    rfl

/-- The faults held, oldest first, after one more. -/
theorem reverse_hold (held : List Fault) (f : Option Fault) :
    (hold held f).reverse = held.reverse ++ f.toList := by
  cases f with
  | none => simp [hold]
  | some f => simp [hold]

/-- Draining a lexer gives the tokens of the pieces of its input. -/
theorem drain_tokens (k : Cursor) (cs : List Char) :
    ∀ l : Lexer, l.input = cs → l.cursor = k → l.drain.1 = (pieces k cs).map Piece.token := by
  fun_induction pieces k cs with
  | case1 k =>
      intro l hl _
      rw [drain_of_nil hl]
      rfl
  | case2 k c cs p ih =>
      intro l hl hk
      subst hk
      rw [drain_of_cons hl, List.map_cons]
      exact congrArg _ (ih (l.past p) rfl rfl)

/-- Draining a lexer adds the faults of the pieces of its input to those it holds. -/
theorem drain_faults (k : Cursor) (cs : List Char) :
    ∀ l : Lexer, l.input = cs → l.cursor = k →
      l.drain.2.held.reverse = l.held.reverse ++ (pieces k cs).filterMap Piece.fault := by
  fun_induction pieces k cs with
  | case1 k =>
      intro l hl _
      rw [drain_of_nil hl, List.filterMap_nil, List.append_nil]
  | case2 k c cs p ih =>
      intro l hl hk
      subst hk
      have hheld : (l.past p).held.reverse = l.held.reverse ++ p.fault.toList := reverse_hold _ _
      rw [drain_of_cons hl]
      show (l.past p).drain.2.held.reverse = _
      rw [ih (l.past p) rfl rfl, hheld, List.append_assoc, filterMap_fault_cons]

end Lexer

def piecesOf (text : String) : List Piece := pieces Cursor.origin text.toList

theorem tokenize_tokens (text : String) : (tokenize text).1 = (piecesOf text).map Piece.token :=
  Lexer.drain_tokens _ _ (Lexer.ofText text) rfl rfl

theorem tokenize_faults (text : String) :
    (tokenize text).2 = (piecesOf text).filterMap Piece.fault :=
  Lexer.drain_faults _ _ (Lexer.ofText text) rfl rfl

/-! ### Where the pieces stand -/

/-- The texts of the pieces make up the text. -/
theorem flatMap_text_pieces (k : Cursor) (cs : List Char) :
    (pieces k cs).flatMap (fun p => p.lexeme.text) = cs := by
  fun_induction pieces k cs with
  | case1 => rfl
  | case2 k c cs p ih =>
      rw [List.flatMap_cons, ih]
      exact Lexeme.scan_append c cs

/-- Every piece is what is read at some split of the text, which does not fall inside a line break. -/
theorem mem_pieces {k : Cursor} {cs : List Char} {p : Piece} (h : p ∈ pieces k cs) :
    ∃ front c rest, cs = front ++ c :: rest ∧ ¬ Lexeme.SplitsBreak front (c :: rest) ∧
      p = ⟨Lexeme.scan c rest, k.advance front (c :: rest)⟩ := by
  fun_induction pieces k cs with
  | case1 => cases h
  | case2 k c cs q ih =>
      rcases List.mem_cons.1 h with rfl | h
      · exact ⟨[], c, cs, rfl, Lexeme.not_splitsBreak_of_onLine Lexeme.onLine_nil _, rfl⟩
      · obtain ⟨front, d, rest, hrest, hsplit, rfl⟩ := ih h
        refine ⟨(Lexeme.scan c cs).text ++ front, d, rest, ?_, ?_, ?_⟩
        · rw [List.append_assoc, ← hrest, Lexeme.scan_append]
        · cases front with
          | nil =>
              rw [List.append_nil, show d :: rest = (Lexeme.scan c cs).rest from hrest.symm]
              exact Lexeme.scan_not_splitsBreak c cs
          | cons e front =>
              rw [Lexeme.SplitsBreak, List.getLast?_append_cons]
              exact hsplit
        · rw [Cursor.advance_append, ← hrest]
          rfl

/-- The fault of a piece can be seen from its kind and text. -/
theorem lexeme_fault {k : Cursor} {cs : List Char} {p : Piece} (hp : p ∈ pieces k cs) :
    p.lexeme.fault = Lexeme.faultFor p.lexeme.kind p.lexeme.text := by
  obtain ⟨front, c, rest, -, -, rfl⟩ := mem_pieces hp
  exact Lexeme.scan_fault c rest

/-- The first piece begins where reading begins. -/
theorem head_pieces {k : Cursor} {cs : List Char} {p : Piece} (h : p ∈ (pieces k cs).head?) :
    p.start = k := by
  cases cs with
  | nil => simp at h
  | cons c cs =>
      rw [pieces_cons, List.head?_cons, Option.mem_some_iff] at h
      rw [← h]

/-- Each piece begins where the one before it stops. -/
theorem isChain_pieces (k : Cursor) (cs : List Char) :
    (pieces k cs).IsChain fun p q => q.start = p.stop := by
  fun_induction pieces k cs with
  | case1 => exact .nil
  | case2 k c cs p ih => exact List.isChain_cons.2 ⟨fun q hq => head_pieces hq, ih⟩

/-- The last piece stops at the end of the text. -/
theorem getLast_pieces {k : Cursor} {cs : List Char} {p : Piece}
    (h : p ∈ (pieces k cs).getLast?) : p.stop = k.advance cs [] := by
  fun_induction pieces k cs with
  | case1 => cases h
  | case2 k c cs q ih =>
      have hall : k.advance (c :: cs) [] = q.stop.advance (Lexeme.scan c cs).rest [] := by
        rw [← Lexeme.scan_append c cs, Cursor.advance_append, List.append_nil]
        rfl
      rw [hall]
      cases hrest : pieces q.stop (Lexeme.scan c cs).rest with
      | nil =>
          rw [hrest] at h
          have hp : q = p := by simpa using h
          have hnil : (Lexeme.scan c cs).rest = [] := by
            rw [← flatMap_text_pieces q.stop (Lexeme.scan c cs).rest, hrest]
            rfl
          rw [← hp, hnil]
          rfl
      | cons q' qs =>
          apply ih
          rw [hrest] at h
          rw [hrest]
          simpa using h

end RexxService
