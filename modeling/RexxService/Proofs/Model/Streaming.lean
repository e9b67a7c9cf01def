import RexxService.Model
import RexxService.Proofs.Lexer.Coverage
import RexxService.Proofs.Symbols.Sweep

/-!
# Parsing in one pass

A parse reads, looks ahead and collects in turn, and both the lexer and the collector find faults on
the way.  It gives what the two give one after the other:

* **`take`**, **`takeAll`** — the parse of a current text after a token, and after a list of pieces,
  with **`consume_fresh`**;
* **`riffle`** — the faults of the lexer and of the `end` keywords, piece by piece;
* **`settled_takeAll`** — reading pieces and then showing the last token to the collector is sweeping
  over the significant tokens, apart from the faults, which are riffled;
* **`riffle_perm`**, **`riffle_sublist`** — riffling loses no fault, and no token has two, so the faults
  stand in the order of their tokens;
* **`parse_tokens`**, **`parse_vars`**, **`parse_labels`**, **`parse_faults`** — what a parse gives, in
  these terms.

Together these are **`parse_streams`**.
-/

namespace RexxService

/-- The faults of pieces that follow each other: at each piece the one of the lexer, and then the one
of an `end` when no block is open. -/
def riffle (blocks : List Token) : List Piece → List Fault
  | [] => []
  | p :: ps =>
      p.fault.toList ++ (endFault blocks p.token).toList ++ riffle (blocksAfter blocks p.token) ps

namespace Reading

/-! ### Reading a current text -/

/-- The collector after the current token and the faults that were waiting. -/
def settled (r : Reading) (next : Option Token) : Collector :=
  match r.current with
  | none => r.collector.addFaults r.waiting
  | some t => (r.collector.note r.previous t next).addFaults r.waiting

/-- The parse after a token with the faults found at it. -/
def take (r : Reading) (t : Token) (faults : List Fault) : Reading :=
  let r := { r with tokens := r.tokens.push t, waiting := r.waiting ++ faults }
  if t.kind.isTrivia then r else ⟨r.tokens, r.settled (some t), r.current, some t, []⟩

def takeAll (r : Reading) (ps : List Piece) : Reading :=
  ps.foldl (fun r p => r.take p.token p.fault.toList) r

theorem take_of_trivia {t : Token} (h : t.kind.isTrivia = true) (r : Reading) (fs : List Fault) :
    r.take t fs = { r with tokens := r.tokens.push t, waiting := r.waiting ++ fs } := by
  rw [take, if_pos h]

theorem take_of_shown {t : Token} (h : t.kind.isTrivia = false) (r : Reading) (fs : List Fault) :
    r.take t fs = ⟨r.tokens.push t, settled { r with waiting := r.waiting ++ fs } (some t),
      r.current, some t, []⟩ := by
  rw [take, h]
  rfl

theorem settleCurrent_fresh (r : Reading) (next : Option Token) :
    r.settleCurrent .fresh next = .ok (r.settled next) := by
  rw [settleCurrent, settled]
  cases r.current with
  | none => rfl
  | some t =>
      simp only [Collector.handle_fresh]
      rfl

theorem feed_fresh (r : Reading) (t : Token) (faults : List Fault) :
    r.feed .fresh t faults = .ok (r.take t faults) := by
  rw [feed, take]
  simp only [settleCurrent_fresh]
  split <;> rfl

theorem finish_fresh (r : Reading) : r.finish .fresh = .ok (r.settled none).symbols := by
  rw [finish, settleCurrent_fresh]
  exact Collector.finish_fresh _

/-- The parse of a current text takes the pieces of the text, one after the other. -/
theorem consume_fresh (k : Cursor) (cs : List Char) :
    ∀ (r : Reading) (l : Lexer), l.input = cs → l.cursor = k → l.held = [] →
      consume .fresh r l = .ok (r.takeAll (pieces k cs)) := by
  fun_induction pieces k cs with
  | case1 k =>
      intro r l hl _ _
      rw [consume]
      split
      · rfl
      · rename_i hnext
        rw [Lexer.next_of_nil hl] at hnext
        cases hnext
  | case2 k c cs p ih =>
      intro r l hl hk hheld
      subst hk
      rw [consume]
      split
      · rename_i hnext
        rw [Lexer.next_of_cons hl] at hnext
        cases hnext
      · rename_i t l' hnext
        rw [Lexer.next_of_cons hl] at hnext
        cases hnext
        have hfaults : (l.past p).takeFaults.1 = p.fault.toList := by
          show (Lexer.hold l.held p.fault).reverse = _
          rw [Lexer.reverse_hold, hheld]
          rfl
        show (r.feed .fresh p.token (l.past p).takeFaults.1).bind
          (fun r => consume .fresh r (l.past p).takeFaults.2) = _
        rw [hfaults, feed_fresh]
        exact ih _ _ rfl rfl rfl

/-! ### Names -/

/-- Showing the last token to the collector, after all pieces, is sweeping over the significant
tokens, apart from the faults. -/
theorem settled_takeAll (ps : List Piece) :
    ∀ r : Reading, (r.current = none → r.previous = none) →
      ((r.takeAll ps).settled none).withFaults []
        = (r.collector.sweep r.previous
            (r.current.toList ++ significant (ps.map Piece.token))).withFaults [] := by
  -- The induction is on what is still to be read, with the token that waits for its successor in front.
  -- Without such a token nothing significant has been read, so there is no previous token either.
  induction ps with
  | nil =>
      intro r _
      show (r.settled none).withFaults [] = _
      rw [settled.eq_def]
      cases r.current with
      | none => rfl
      | some t => rfl
  | cons p ps ih =>
      intro r hr
      show (((r.take p.token p.fault.toList).takeAll ps).settled none).withFaults [] = _
      cases h : p.token.kind.isTrivia with
      | true =>
          rw [take_of_trivia h, List.map_cons, significant_cons_of_trivia h]
          exact ih _ hr
      | false =>
          rw [take_of_shown h, List.map_cons, significant_cons_of_shown h, settled.eq_def]
          refine (ih _ fun hnone => by cases hnone).trans ?_
          cases hc : r.current with
          | none =>
              rw [hr hc]
              show ((r.collector.addFaults _).sweep none _).withFaults [] = _
              rw [Collector.addFaults_eq, Collector.sweep_withFaults]
              rfl
          | some c =>
              show (((r.collector.note r.previous c (some p.token)).addFaults _).sweep
                (some c) _).withFaults [] = _
              rw [Collector.addFaults_eq, Collector.sweep_withFaults]
              rfl

theorem takeAll_tokens (r : Reading) (ps : List Piece) :
    (r.takeAll ps).tokens.toList = r.tokens.toList ++ ps.map Piece.token := by
  induction ps generalizing r with
  | nil => exact (List.append_nil _).symm
  | cons p ps ih =>
      have htokens : (r.take p.token p.fault.toList).tokens = r.tokens.push p.token := by
        rw [take]
        split <;> rfl
      show ((r.take p.token p.fault.toList).takeAll ps).tokens.toList = _
      rw [ih, htokens, Array.toList_push, List.append_assoc]
      rfl

/-! ### Faults -/

/-- The blocks that are open after the current token. -/
def blocks (r : Reading) : List Token :=
  match r.current with
  | none => r.collector.blocks
  | some t => blocksAfter r.collector.blocks t

/-- The faults found so far, that of the current token before those that wait. -/
def found (r : Reading) : List Fault :=
  r.collector.faults.toList ++ (r.current.bind (endFault r.collector.blocks)).toList ++ r.waiting

theorem settled_blocks (r : Reading) (next : Option Token) :
    (r.settled next).blocks = r.blocks := by
  rw [settled.eq_def, blocks.eq_def]
  cases r.current with
  | none => rfl
  | some t => exact Collector.note_blocks _ _ _ _

theorem settled_faults (r : Reading) (next : Option Token) :
    (r.settled next).faults.toList = r.found := by
  rw [settled.eq_def, found]
  cases r.current with
  | none =>
      show (r.collector.addFaults _).faults.toList = _ ++ [] ++ _
      rw [Collector.addFaults_eq, List.append_nil]
      rfl
  | some t =>
      show ((r.collector.note _ t _).addFaults _).faults.toList = _
      rw [Collector.addFaults_eq, Collector.note_faults]
      rfl

/-- What a token does to the open blocks. -/
theorem take_blocks (r : Reading) (t : Token) (fs : List Fault) :
    (r.take t fs).blocks = blocksAfter r.blocks t := by
  cases h : t.kind.isTrivia with
  | true =>
      rw [take_of_trivia h, blocksAfter_of_ne (ne_keyword_of_trivia h)]
      rfl
  | false =>
      rw [take_of_shown h]
      show blocksAfter (settled _ _).blocks t = _
      rw [settled_blocks]
      rfl

/-- What a token adds to the faults: those found at it, and then its own. -/
theorem take_found (r : Reading) (t : Token) (fs : List Fault) :
    (r.take t fs).found = r.found ++ fs ++ (endFault r.blocks t).toList := by
  cases h : t.kind.isTrivia with
  | true =>
      rw [take_of_trivia h, endFault_of_ne (ne_keyword_of_trivia h), found, found]
      simp only [List.append_assoc, Option.toList_none, List.append_nil]
  | false =>
      have hfound : found { r with waiting := r.waiting ++ fs } = r.found ++ fs :=
        (List.append_assoc _ _ _).symm
      rw [take_of_shown h, found, settled_faults, settled_blocks, hfound, List.append_nil]
      rfl

/-- What pieces add to the faults. -/
theorem takeAll_found (r : Reading) (ps : List Piece) :
    (r.takeAll ps).found = r.found ++ riffle r.blocks ps := by
  induction ps generalizing r with
  | nil => exact (List.append_nil _).symm
  | cons p ps ih =>
      show ((r.take p.token p.fault.toList).takeAll ps).found = _
      rw [ih, take_found, take_blocks, riffle]
      simp only [List.append_assoc]

end Reading

/-! ### The order of faults -/

/-- Riffling loses no fault and adds none. -/
theorem riffle_perm (blocks : List Token) (ps : List Piece) :
    (riffle blocks ps).Perm (ps.filterMap Piece.fault ++ endFaults blocks (ps.map Piece.token)) := by
  induction ps generalizing blocks with
  | nil => exact List.Perm.refl _
  | cons p ps ih =>
      have hlexer : (p :: ps).filterMap Piece.fault
          = p.fault.toList ++ ps.filterMap Piece.fault := by
        rw [List.filterMap_cons]
        cases p.fault with
        | none => rfl
        | some f => rfl
      rw [riffle, List.map_cons, endFaults, hlexer, List.append_assoc, List.append_assoc]
      apply List.Perm.append_left
      refine ((ih (blocksAfter blocks p.token)).append_left _).trans ?_
      rw [← List.append_assoc, ← List.append_assoc]
      exact (List.perm_append_comm).append_right _

/-- A keyword has no fault of the lexer. -/
theorem fault_of_keyword {k : Cursor} {cs : List Char} {p : Piece} (hp : p ∈ pieces k cs)
    (h : p.token.kind = .keyword) : p.fault = none := by
  obtain ⟨front, c, rest, -, -, rfl⟩ := mem_pieces hp
  rw [Piece.token_kind] at h
  have hfault : (Lexeme.scan c rest).fault = none := by
    rw [Lexeme.scan_fault, h]
    rfl
  rw [Piece.fault, Lexer.faultOf, hfault]
  rfl

/-- No piece has two faults, so riffled faults stand in the order of their tokens. -/
theorem riffle_sublist (blocks : List Token) (ps : List Piece)
    (h : ∀ p ∈ ps, p.token.kind = .keyword → p.fault = none) :
    ((riffle blocks ps).map Fault.token).Sublist (ps.map Piece.token) := by
  induction ps generalizing blocks with
  | nil => exact List.Sublist.refl _
  | cons p ps ih =>
      have hrest := ih (blocksAfter blocks p.token) fun q hq => h q (List.mem_cons_of_mem _ hq)
      have hp : ((p.fault.toList ++ (endFault blocks p.token).toList).map Fault.token).Sublist
          [p.token] := by
        cases hend : endFault blocks p.token with
        | none =>
            cases hfault : p.fault with
            | none => exact List.nil_sublist _
            | some f =>
                show [f.token].Sublist [p.token]
                rw [Piece.fault_token hfault]
        | some f =>
            obtain ⟨hkind, rfl⟩ := endFault_eq_some hend
            rw [h p List.mem_cons_self hkind]
            exact List.Sublist.refl _
      rw [riffle, List.map_append]
      exact hp.append hrest

/-- Faults in the order of their tokens stand at increasing offsets. -/
theorem pairwise_offset_of_sublist {text : String} {fs : List Fault}
    (h : (fs.map Fault.token).Sublist ((piecesOf text).map Piece.token)) :
    fs.Pairwise fun f g => f.token.offset < g.token.offset := by
  have htokens : ((piecesOf text).map Piece.token).Pairwise fun t u => t.offset < u.offset := by
    rw [List.pairwise_map]
    exact pairwise_offset_pieces _ _
  have hfaults := htokens.sublist h
  rw [List.pairwise_map] at hfaults
  exact hfaults

/-! ### Parsing and analysing agree -/

/-- The collector that has been shown the significant tokens of a text. -/
def collected (text : String) : Collector :=
  Collector.empty.sweep none (significant ((piecesOf text).map Piece.token))

namespace Model

/-- The parse of a current text comes to its end. -/
theorem parseWhile_fresh (uri text : String) :
    parseWhile .fresh uri text = .ok (ofSymbols uri (Reading.empty.takeAll (piecesOf text)).tokens
      ((Reading.empty.takeAll (piecesOf text)).settled none).symbols) := by
  rw [parseWhile, Reading.consume_fresh _ _ Reading.empty (Lexer.ofText text) rfl rfl rfl]
  show (Reading.finish (Reading.empty.takeAll (piecesOf text)) .fresh).bind _ = _
  rw [Reading.finish_fresh]
  rfl

theorem parse_eq (uri text : String) :
    parse uri text = ofSymbols uri (Reading.empty.takeAll (piecesOf text)).tokens
      ((Reading.empty.takeAll (piecesOf text)).settled none).symbols := by
  rw [parse, parseWhile_fresh]

theorem parse_uri (uri text : String) : (parse uri text).uri = uri := by
  rw [parse_eq]
  rfl

theorem parse_tokens (uri text : String) :
    (parse uri text).tokens.toList = (piecesOf text).map Piece.token := by
  rw [parse_eq]
  exact Reading.takeAll_tokens _ _

theorem settled_eq_collected (text : String) :
    ((Reading.empty.takeAll (piecesOf text)).settled none).withFaults []
      = (collected text).withFaults [] :=
  Reading.settled_takeAll (piecesOf text) Reading.empty fun _ => rfl

theorem parse_vars (uri text : String) : (parse uri text).vars = (collected text).vars.sorted := by
  rw [parse_eq]
  exact congrArg (fun s => s.vars.sorted) (settled_eq_collected text)

theorem parse_labels (uri text : String) :
    (parse uri text).labels = (collected text).labels.sorted := by
  rw [parse_eq]
  exact congrArg (fun s => s.labels.sorted) (settled_eq_collected text)

/-- The faults found on the way, and then the blocks that are still open. -/
theorem parse_faults (uri text : String) :
    (parse uri text).faults = riffle [] (piecesOf text)
      ++ (collected text).blocks.reverse.map (Fault.mk .unmatchedDo) := by
  have hblocks := congrArg Collector.blocks (settled_eq_collected text)
  rw [Collector.withFaults_blocks, Collector.withFaults_blocks] at hblocks
  rw [parse_eq, ← hblocks]
  show ((Reading.empty.takeAll (piecesOf text)).settled none).faults.toList ++ _ = _
  rw [Reading.settled_faults, Reading.takeAll_found]
  rfl

end Model

/-- Blocks that are still open stand in the order of their tokens. -/
theorem reverse_blocks_collected (text : String) :
    (collected text).blocks.reverse.Sublist ((piecesOf text).map Piece.token) := by
  rw [collected, Collector.sweep_blocks]
  exact (reverse_blocks_sublist [] _).trans List.filter_sublist

/-- **Parsing in one pass is analysing the tokens of the text.**  The parse of a current text comes to
its end.  Its tokens are those of the text, and its variables and labels are those of a collector that
is shown the significant ones, each between its neighbours.  Its faults are those of the lexer and of
the `end` keywords in the order of their offsets, and then those of the `do` keywords in this order. -/
theorem parse_streams (uri text : String) :
    Model.parseWhile .fresh uri text = .ok (Model.parse uri text) ∧
      (Model.parse uri text).tokens.toList = (tokenize text).1 ∧
      ∃ collector symbols,
        Collector.empty.feed .fresh none (significant (tokenize text).1) = (.ok (), collector) ∧
        collector.finish .fresh = .ok symbols ∧
        (Model.parse uri text).vars = symbols.vars ∧
        (Model.parse uri text).labels = symbols.labels ∧
        ∃ early late, (Model.parse uri text).faults = early ++ late ∧
          early.Perm
            ((tokenize text).2 ++ symbols.faults.filter fun f => f.kind == .unmatchedEnd) ∧
          early.Pairwise (fun f g => f.token.offset < g.token.offset) ∧
          late.Perm (symbols.faults.filter fun f => f.kind == .unmatchedDo) ∧
          late.Pairwise (fun f g => f.token.offset < g.token.offset) := by
  rw [tokenize_tokens, tokenize_faults]
  refine ⟨?_, Model.parse_tokens uri text, collected text, (collected text).symbols,
    Collector.feed_fresh _ _ _, Collector.finish_fresh _, Model.parse_vars uri text,
    Model.parse_labels uri text, _, _, Model.parse_faults uri text, ?_, ?_, ?_, ?_⟩
  · rw [Model.parse_eq]
    exact Model.parseWhile_fresh uri text
  · rw [collected, Collector.filter_unmatchedEnd, endFaults_significant]
    exact riffle_perm _ _
  · apply pairwise_offset_of_sublist
    exact riffle_sublist _ _ fun p hp => fault_of_keyword hp
  · rw [collected, Collector.filter_unmatchedDo, Collector.sweep_blocks]
    exact List.Perm.refl _
  · apply pairwise_offset_of_sublist
    have htokens : (Fault.token ∘ Fault.mk .unmatchedDo) = id := rfl
    rw [List.map_map, htokens, List.map_id]
    exact reverse_blocks_collected text

end RexxService
