import RexxService.Proofs.Lexer.Pieces

/-!
# Taking faults while reading

Tokens and faults may be asked of a lexer in any order.  When the faults are taken has no influence on the
tokens, and no fault is lost, doubled or late: at any moment, the faults that were taken and those that are
still held are the faults of the tokens handed out so far.

* **`Session`** — a lexer in use, with what has been handed out and taken;
* **`Session.At`** — where it has got to: a number of pieces of the text have been handed out;
* **`Session.At.next`**, **`Session.At.takeFaults`** — what one call does, and **`Session.at_after`** what all
  of them do;
* **`Token.fault?`** — the fault of a token, told from the token alone;
* **`faults_follow_tokens`** — the law for every order of calls.
-/

namespace RexxService

namespace Lexer

inductive Call where
  | next
  | takeFaults
deriving DecidableEq, Repr

/-- A lexer in use: what it is now, the tokens that it has handed out and the faults that were taken from it,
both in order. -/
structure Session where
  lexer : Lexer
  tokens : List Token
  taken : List Fault
deriving DecidableEq, Repr

namespace Session

def ofText (text : String) : Session := ⟨Lexer.ofText text, [], []⟩

/-- The session after a call.  At the end of the text there is no token to hand out. -/
def serve (s : Session) : Call → Session
  | .next =>
      match s.lexer.next with
      | none => s
      | some (t, l) => ⟨l, s.tokens ++ [t], s.taken⟩
  | .takeFaults => ⟨s.lexer.takeFaults.2, s.tokens, s.taken ++ s.lexer.takeFaults.1⟩

def after (text : String) (calls : List Call) : Session := calls.foldl serve (ofText text)

/-! ### One call -/

/-- The first `n` pieces of the text have been handed out, or all if there are fewer: the others are unread, and
the faults taken and held are those of the pieces handed out. -/
structure At (text : String) (n : Nat) (s : Session) : Prop where
  unread : pieces s.lexer.cursor s.lexer.input = (piecesOf text).drop n
  tokens : s.tokens = ((piecesOf text).take n).map Piece.token
  faults : s.taken ++ s.lexer.held.reverse = ((piecesOf text).take n).filterMap Piece.fault

variable {text : String} {n : Nat} {s : Session}

theorem at_ofText (text : String) : (ofText text).At text 0 where
  unread := rfl
  tokens := rfl
  faults := rfl

theorem serve_of_nil (hinput : s.lexer.input = []) : s.serve .next = s := by
  rw [serve, next_of_nil hinput]

theorem serve_of_cons {c : Char} {cs : List Char} (hinput : s.lexer.input = c :: cs) {p : Piece}
    (hp : p = ⟨Lexeme.scan c cs, s.lexer.cursor⟩) :
    s.serve .next = ⟨s.lexer.past p, s.tokens ++ [p.token], s.taken⟩ := by
  rw [serve, next_of_cons hinput, hp]

/-- At the end of the text nothing is handed out, and nothing is left to be handed out. -/
theorem At.stays (h : s.At text n) (hinput : s.lexer.input = []) : s.At text (n + 1) := by
  have hunread := h.unread
  rw [hinput, pieces_nil] at hunread
  have hall : (piecesOf text).length ≤ n := List.drop_eq_nil_iff.1 hunread.symm
  have htake : (piecesOf text).take (n + 1) = (piecesOf text).take n := by
    rw [List.take_of_length_le hall, List.take_of_length_le (by omega)]
  constructor
  · rw [hinput, pieces_nil, List.drop_of_length_le (by omega)]
  · rw [htake]
    exact h.tokens
  · rw [htake]
    exact h.faults

/-- A piece that is read is handed out as a token, and its fault is held. -/
theorem At.past (h : s.At text n) {p : Piece}
    (hunread : pieces s.lexer.cursor s.lexer.input = p :: pieces p.stop p.lexeme.rest) :
    At text (n + 1) ⟨s.lexer.past p, s.tokens ++ [p.token], s.taken⟩ := by
  have hdrop : (piecesOf text).drop n = p :: pieces p.stop p.lexeme.rest := h.unread.symm.trans hunread
  have htake : (piecesOf text).take (n + 1) = (piecesOf text).take n ++ [p] := by
    rw [List.take_add_one, ← List.head?_drop, hdrop]
    rfl
  constructor
  · rw [← List.tail_drop, hdrop]
    rfl
  · rw [htake, List.map_append, ← h.tokens]
    rfl
  · rw [htake, List.filterMap_append, ← h.faults, filterMap_fault_cons, List.filterMap_nil,
      List.append_nil, List.append_assoc]
    exact congrArg (s.taken ++ ·) (reverse_hold s.lexer.held p.fault)

/-- A call for a token hands out the next piece, if there is one. -/
theorem At.next (h : s.At text n) : (s.serve .next).At text (n + 1) := by
  cases hinput : s.lexer.input with
  | nil =>
      rw [serve_of_nil hinput]
      exact h.stays hinput
  | cons c cs =>
      rw [serve_of_cons hinput rfl]
      apply h.past
      rw [hinput, pieces_cons]

/-- Faults that are taken are held no longer, and nothing else changes. -/
theorem At.takeFaults (h : s.At text n) : (s.serve .takeFaults).At text n where
  unread := h.unread
  tokens := h.tokens
  faults := by
    show s.taken ++ s.lexer.held.reverse ++ [].reverse = _
    rw [List.reverse_nil, List.append_nil]
    exact h.faults

/-! ### All calls -/

theorem At.foldl (h : s.At text n) (calls : List Call) :
    (calls.foldl serve s).At text (n + calls.count .next) := by
  induction calls generalizing s n with
  | nil => exact h
  | cons call calls ih =>
      cases call with
      | next =>
          have hrest := ih h.next
          rw [List.count_cons_self, Nat.add_comm (calls.count .next), ← Nat.add_assoc]
          exact hrest
      | takeFaults =>
          rw [List.count_cons_of_ne (by decide)]
          exact ih h.takeFaults

/-- Each call for a token hands out one more piece, whatever else is asked in between. -/
theorem at_after (text : String) (calls : List Call) :
    (after text calls).At text (calls.count .next) := by
  have h := (at_ofText text).foldl calls
  rw [Nat.zero_add] at h
  exact h

end Session

end Lexer

/-- The fault of a token, told from its kind and its text. -/
def Token.fault? (t : Token) : Option Fault :=
  (Lexeme.faultFor t.kind t.text.toList).map fun kind => ⟨kind, t⟩

theorem fault_of_piece {k : Cursor} {cs : List Char} {p : Piece} (hp : p ∈ pieces k cs) :
    p.fault = p.token.fault? := by
  rw [Piece.fault, Lexer.faultOf, lexeme_fault hp, Token.fault?, Piece.token_kind, Piece.token_text,
    String.toList_ofList]

/-- **The faults of a lexer follow its tokens, whenever they are taken.**  After any calls for tokens and for
faults, as many tokens of the text have been handed out, from the first one on, as were asked for and as there
are.  The faults that were taken so far, followed by those still held, are the faults of these tokens, in
order: one for each token that is illegal or unclosed, and none for any other. -/
theorem faults_follow_tokens (text : String) (calls : List Lexer.Call) :
    (Lexer.Session.after text calls).tokens = (tokenize text).1.take (calls.count .next) ∧
      (Lexer.Session.after text calls).taken ++ (Lexer.Session.after text calls).lexer.takeFaults.1
        = (Lexer.Session.after text calls).tokens.filterMap Token.fault? := by
  have h := Lexer.Session.at_after text calls
  constructor
  · rw [h.tokens, tokenize_tokens, List.map_take]
  · have hpieces : ∀ p ∈ (piecesOf text).take (calls.count .next), p.fault = p.token.fault? :=
      fun p hp => fault_of_piece (List.mem_of_mem_take hp)
    rw [h.tokens, List.filterMap_map]
    exact h.faults.trans (List.filterMap_congr hpieces)

end RexxService
