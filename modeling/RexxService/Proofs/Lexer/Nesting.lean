import RexxService.Proofs.Lexer.Appending
import RexxService.Proofs.Lexer.Munch

/-!
# Nested comments

What a comment is can be said by two rules that refer to each other, without a count of what is open.  A
comment has its two marks and a body between them; a body is made up of comments and of characters.  Which
characters may stand in a body depends on the text behind them, because no character may begin a mark where
it stands, so both rules speak of a text in front of another one.

* **`IsComment`**, **`IsBody`** — the two rules;
* **`readOver_of_isBody`** — a body leaves the number of open comments as it was;
* **`closes_of_commentBody`** — what closes a number of comments is made up of as many bodies;
* **`commentBody_eq_some_iff`** — counting finds a comment exactly where the rules have one;
* **`comments_nest_exactly`** — the tokens of a text that opens with a comment.
-/

namespace RexxService

open RexxService.Text

namespace Lexeme

/-! ### The rules -/

/-- A text begins with the mark that opens or with the mark that closes a comment. -/
def StartsMark (cs : List Char) : Prop := ['/', '*'] <+: cs ∨ ['*', '/'] <+: cs

mutual

/-- A comment in front of a text: its two marks, and a body between them. -/
inductive IsComment : List Char → List Char → Prop where
  | marks {body rest : List Char} (hbody : IsBody body ('*' :: '/' :: rest)) :
      IsComment ('/' :: '*' :: (body ++ ['*', '/'])) rest

/-- A body in front of a text: comments, and characters that do not begin a mark where they stand. -/
inductive IsBody : List Char → List Char → Prop where
  | empty (rest : List Char) : IsBody [] rest
  | nested {inner body rest : List Char} (hinner : IsComment inner (body ++ rest))
      (hbody : IsBody body rest) : IsBody (inner ++ body) rest
  | plain {c : Char} {body rest : List Char} (hc : ¬ StartsMark (c :: (body ++ rest)))
      (hbody : IsBody body rest) : IsBody (c :: body) rest

end

/-! ### Counting what is open -/

theorem map_ahead_ahead (cs ds : List Char) (found : Option (List Char × List Char)) :
    (found.map (ahead ds)).map (ahead cs) = found.map (ahead (cs ++ ds)) := by
  rw [Option.map_map]
  refine congrArg (fun f => found.map f) (funext fun parts => ?_)
  simp [ahead]

theorem commentBody_plain (depth : Nat) {c : Char} {cs : List Char} (h : ¬ StartsMark (c :: cs)) :
    commentBody (depth + 1) (c :: cs) = (commentBody (depth + 1) cs).map (ahead [c]) := by
  refine commentBody.eq_5 _ _ _ (fun ds hc hcs => h ?_) (fun ds hc hcs => h ?_)
  · rw [hc, hcs]
    exact Or.inl ⟨ds, rfl⟩
  · rw [hc, hcs]
    exact Or.inr ⟨ds, rfl⟩

/-- Whatever is open around a text, reading goes over all of it and comes out with the same number of open
comments. -/
def ReadOver (text rest : List Char) : Prop :=
  ∀ depth, commentBody (depth + 1) (text ++ rest) = (commentBody (depth + 1) rest).map (ahead text)

theorem readOver_of_isBody {text rest : List Char} (h : IsBody text rest) : ReadOver text rest := by
  refine @IsBody.rec (fun text rest _ => ReadOver text rest) (fun text rest _ => ReadOver text rest)
    ?marks ?empty ?nested ?plain text rest h
  case marks =>
    intro body rest hbody hread depth
    simp only [List.cons_append, List.append_assoc, List.nil_append]
    rw [commentBody, hread, commentBody, map_ahead_ahead, map_ahead_ahead]
    rfl
  case empty =>
    intro rest depth
    rw [List.nil_append, show ahead [] = id from rfl, Option.map_id, id]
  case nested =>
    intro inner body rest hinner hbody hreadInner hread depth
    rw [List.append_assoc, hreadInner, hread, map_ahead_ahead]
  case plain =>
    intro c body rest hc hbody hread depth
    rw [List.cons_append, commentBody_plain depth hc, hread, map_ahead_ahead]
    rfl

/-- As many bodies as there are comments to close, each with a closing mark behind it. -/
inductive Closes : Nat → List Char → List Char → Prop where
  | none (rest : List Char) : Closes 0 [] rest
  | one {depth : Nat} {body more rest : List Char} (hbody : IsBody body ('*' :: '/' :: (more ++ rest)))
      (hmore : Closes depth more rest) : Closes (depth + 1) (body ++ '*' :: '/' :: more) rest

/-- What closes a number of open comments is made up of as many bodies. -/
theorem closes_of_commentBody {depth : Nat} {cs text rest : List Char}
    (h : commentBody depth cs = some (text, rest)) : Closes depth text rest := by
  fun_induction commentBody depth cs generalizing text with
  | case1 cs =>
      cases h
      exact .none _
  | case2 => cases h
  | case3 depth cs ih =>
      -- The comment that opens here is closed first, and is a part of the body around it then.
      obtain ⟨⟨b, r⟩, hb, he⟩ := Option.map_eq_some_iff.1 h
      cases he
      cases ih hb with
      | @one _ inner more _ hinner hmore =>
      cases hmore with
      | @one _ body more _ hbody hmore =>
          have hnested : IsBody (('/' :: '*' :: (inner ++ ['*', '/'])) ++ body)
              ('*' :: '/' :: (more ++ r)) :=
            .nested (.marks (by simpa using hinner)) hbody
          simpa [ahead] using Closes.one hnested hmore
  | case4 depth cs ih =>
      obtain ⟨⟨b, r⟩, hb, he⟩ := Option.map_eq_some_iff.1 h
      cases he
      exact .one (.empty _) (ih hb)
  | case5 depth c cs hopen hclose ih =>
      obtain ⟨⟨b, r⟩, hb, he⟩ := Option.map_eq_some_iff.1 h
      cases he
      have hcs := commentBody_append hb
      cases ih hb with
      | @one _ body more _ hbody hmore =>
          have hc : ¬ StartsMark (c :: cs) := by
            rintro (⟨ds, hds⟩ | ⟨ds, hds⟩)
            · obtain ⟨rfl, rfl⟩ := List.cons.inj hds
              exact hopen ds rfl rfl
            · obtain ⟨rfl, rfl⟩ := List.cons.inj hds
              exact hclose ds rfl rfl
          rw [← hcs] at hc
          exact .one (.plain (by simpa using hc) hbody) hmore

/-- What is read behind an opening mark is a comment by the rules, and the other way round. -/
theorem commentBody_eq_some_iff {cs body rest : List Char} :
    commentBody 1 cs = some (body, rest) ↔
      body ++ rest = cs ∧ IsComment ('/' :: '*' :: body) rest := by
  constructor
  · intro h
    refine ⟨commentBody_append h, ?_⟩
    cases closes_of_commentBody h with
    | @one _ text more _ htext hmore =>
        cases hmore
        exact .marks htext
  · rintro ⟨rfl, hcomment⟩
    generalize htext : '/' :: '*' :: body = text at hcomment
    cases hcomment with
    | @marks inner _ hinner =>
        obtain rfl : body = inner ++ ['*', '/'] := (List.cons.inj (List.cons.inj htext).2).2
        have hread := readOver_of_isBody hinner 0
        rw [commentBody, commentBody] at hread
        simpa [ahead] using hread

/-! ### A comment at the beginning of a text -/

/-- A beginning of a text is a comment. -/
def BeginsWithComment (text c : List Char) : Prop := ∃ rest, c ++ rest = text ∧ IsComment c rest

/-- The comment at the beginning of a text is what is read there. -/
theorem comment_eq_of_begins {cs c : List Char} (h : BeginsWithComment ('/' :: '*' :: cs) c) :
    ∃ rest, comment cs = ⟨.comment, c, rest, none⟩ := by
  obtain ⟨rest, hcs, hcomment⟩ := h
  cases hcomment with
  | @marks body _ hbody =>
      have htail : body ++ ['*', '/'] ++ rest = cs := (List.cons.inj (List.cons.inj hcs).2).2
      refine ⟨rest, ?_⟩
      rw [comment, commentBody_eq_some_iff.2 ⟨htail, .marks hbody⟩]

/-- At most one beginning of a text is a comment. -/
theorem eq_of_begins {cs c c' : List Char} (h : BeginsWithComment ('/' :: '*' :: cs) c)
    (h' : BeginsWithComment ('/' :: '*' :: cs) c') : c = c' := by
  obtain ⟨rest, hcomment⟩ := comment_eq_of_begins h
  obtain ⟨rest', hcomment'⟩ := comment_eq_of_begins h'
  exact (Lexeme.mk.inj (hcomment.symm.trans hcomment')).2.1

/-- If no beginning of a text is a comment, all of it is read as an unclosed one. -/
theorem comment_eq_of_not_begins {cs : List Char}
    (h : ∀ c, ¬ BeginsWithComment ('/' :: '*' :: cs) c) :
    comment cs = ⟨.commentUnclosed, '/' :: '*' :: cs, [], some .unclosedComment⟩ := by
  rw [comment]
  split
  · rename_i body rest hread
    obtain ⟨hcs, hcomment⟩ := commentBody_eq_some_iff.1 hread
    exact absurd ⟨rest, by rw [← hcs]; rfl, hcomment⟩ (h ('/' :: '*' :: body))
  · rfl

theorem scan_of_opening (cs : List Char) : scan '/' ('*' :: cs) = comment cs := by
  rw [scan, if_neg (by decide), if_pos ⟨rfl, rfl⟩]
  rfl

/-- Nothing is left behind an unclosed comment. -/
theorem rest_of_commentUnclosed {c : Char} {cs : List Char}
    (h : (scan c cs).kind = .commentUnclosed) : (scan c cs).rest = [] := by
  have hfault : (scan c cs).fault = some .unclosedComment := by
    rw [scan_fault, h]
    rfl
  exact (goesOn_of_unclosedComment hfault).1

end Lexeme

open Lexeme

/-! ### Tokens -/

/-- A piece with nothing behind it is the last one. -/
theorem last_of_rest_eq_nil {p : Piece} (hrest : p.lexeme.rest = []) (k : Cursor) (cs : List Char) :
    ∀ i, (pieces k cs)[i]? = some p → i + 1 = (pieces k cs).length := by
  fun_induction pieces k cs with
  | case1 k =>
      intro i hp
      cases hp
  | case2 k c cs q ih =>
      intro i hp
      cases i with
      | zero =>
          obtain rfl := Option.some.inj hp
          rw [show (scan c cs).rest = [] from hrest, pieces_nil]
          rfl
      | succ i => rw [ih i hp, List.length_cons]

/-- A comment at the beginning of a text is its first token, and has no fault. -/
theorem tokenize_of_begins {text : String} {cs c : List Char} (htext : text.toList = '/' :: '*' :: cs)
    (h : BeginsWithComment text.toList c) :
    ∃ t more, (tokenize text).1 = t :: more ∧ t.kind = .comment ∧ t.text.toList = c ∧
      ∀ f ∈ (tokenize text).2, f.token ≠ t := by
  rw [htext] at h
  obtain ⟨rest, hcomment⟩ := comment_eq_of_begins h
  rw [← scan_of_opening] at hcomment
  obtain ⟨t, more, htokens, hkind, hspelling, hfaults⟩ :=
    exists_first_token_of_faultless htext (by rw [hcomment])
  rw [hcomment] at hkind hspelling
  exact ⟨t, more, htokens, hkind, hspelling, hfaults⟩

/-- A text that opens a comment and does not begin with one is one token, at fault. -/
theorem tokenize_of_not_begins {text : String} {cs : List Char}
    (htext : text.toList = '/' :: '*' :: cs) (h : ∀ c, ¬ BeginsWithComment text.toList c) :
    ∃ t, tokenize text = ([t], [⟨.unclosedComment, t⟩]) ∧ t.kind = .commentUnclosed ∧
      t.text = text := by
  rw [htext] at h
  have hpieces : piecesOf text = [⟨⟨.commentUnclosed, '/' :: '*' :: cs, [], some .unclosedComment⟩,
      Cursor.origin⟩] := by
    rw [piecesOf, htext, pieces_cons, scan_of_opening, comment_eq_of_not_begins h, pieces_nil]
  refine ⟨_, Prod.ext (by rw [tokenize_tokens, hpieces]; rfl) (by rw [tokenize_faults, hpieces]; rfl),
    rfl, ?_⟩
  rw [Piece.token_text, ← htext, String.ofList_toList]

/-- **Nested comments are recognised exactly.**  Of a text that begins with an opening mark, at most one
beginning is a comment.  If there is one, it is the first token, a comment without a fault.  If there is
none, the whole text is one token, an unclosed comment, with one fault.  In every text, only the last token
can be an unclosed comment. -/
theorem comments_nest_exactly :
    (∀ text : String, ['/', '*'] <+: text.toList →
      (∀ c c', BeginsWithComment text.toList c → BeginsWithComment text.toList c' → c = c') ∧
      (∀ c, BeginsWithComment text.toList c → ∃ t more, (tokenize text).1 = t :: more ∧
        t.kind = .comment ∧ t.text.toList = c ∧ ∀ f ∈ (tokenize text).2, f.token ≠ t) ∧
      ((∀ c, ¬ BeginsWithComment text.toList c) → ∃ t, tokenize text = ([t], [⟨.unclosedComment, t⟩]) ∧
        t.kind = .commentUnclosed ∧ t.text = text)) ∧
    ∀ (text : String) (i : Nat) (t : Token), (tokenize text).1[i]? = some t →
      t.kind = .commentUnclosed → i + 1 = (tokenize text).1.length := by
  constructor
  · rintro text ⟨cs, hcs⟩
    have htext : text.toList = '/' :: '*' :: cs := hcs.symm
    refine ⟨fun c c' => ?_, fun c => tokenize_of_begins htext, tokenize_of_not_begins htext⟩
    rw [htext]
    exact eq_of_begins
  · intro text i t ht hkind
    rw [tokenize_tokens, List.getElem?_map] at ht
    obtain ⟨p, hp, rfl⟩ := Option.map_eq_some_iff.1 ht
    obtain ⟨front, c, rest, -, -, rfl⟩ := mem_pieces (List.mem_of_getElem? hp)
    rw [tokenize_tokens, List.length_map]
    exact last_of_rest_eq_nil (rest_of_commentUnclosed hkind) _ _ i hp

/-- In the first text a slash stands behind the opening mark, and a comment in front of the closing one.  In
the second text the two marks overlap, and the comment stays open. -/
theorem comments_nest_exactly_overlap :
    (∃ t more, (tokenize "/*/ /**/*/x").1 = t :: more ∧ t.kind = .comment ∧ t.text = "/*/ /**/*/") ∧
      ∃ t, tokenize "/*/" = ([t], [⟨.unclosedComment, t⟩]) ∧ t.text = "/*/" := by
  constructor
  · have hread : commentBody 1 "/ /**/*/x".toList = some ("/ /**/*/".toList, ['x']) := by decide
    obtain ⟨-, hclosed, -⟩ := comments_nest_exactly.1 "/*/ /**/*/x" (by decide)
    obtain ⟨t, more, htokens, hkind, htext, -⟩ :=
      hclosed "/*/ /**/*/".toList ⟨['x'], rfl, (commentBody_eq_some_iff.1 hread).2⟩
    exact ⟨t, more, htokens, hkind, String.toList_injective htext⟩
  · have hread : comment ['/'] = ⟨.commentUnclosed, "/*/".toList, [], some .unclosedComment⟩ := rfl
    have hnone (c : List Char) : ¬ BeginsWithComment ('/' :: '*' :: ['/']) c := by
      intro hbegins
      obtain ⟨rest, hcomment⟩ := comment_eq_of_begins hbegins
      cases hread.symm.trans hcomment
    obtain ⟨-, -, hopen⟩ := comments_nest_exactly.1 "/*/" (by decide)
    obtain ⟨t, htokenize, -, htext⟩ := hopen hnone
    exact ⟨t, htokenize, htext⟩

end RexxService
