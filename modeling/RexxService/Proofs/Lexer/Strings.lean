import RexxService.Proofs.Lexer.Munch

/-!
# Quoted strings

What a string is can be said without reading it one character at a time.  Between its two quotes stand
characters other than the quote, and quotes that are doubled; all of it is on one line; and the closing
quote is not the first half of a doubled one, so no quote follows it.

* **`IsQuotedBody`**, **`BeginsWithString`** — the rule, and a beginning of a text that obeys it;
* **`quotedBody_of_closing`**, **`closing_of_quotedBody`** — reading closes a string exactly where the rule
  does;
* **`quotedBody_of_unclosed`** — a string that is not closed goes on to the end of its line;
* **`enclose`** — any content without a line break, written as a string;
* **`strings_close_exactly`** — the tokens of a text that opens with a quote.
-/

namespace RexxService

open RexxService.Text

namespace Lexeme

/-! ### The rule -/

inductive Quote where
  | single
  | double
deriving DecidableEq, Repr

namespace Quote

def mark : Quote → Char
  | single => '\''
  | double => '"'

def closed : Quote → Token.Kind
  | single => .singleQuoted
  | double => .doubleQuoted

def unclosed : Quote → Token.Kind
  | single => .singleQuotedUnclosed
  | double => .doubleQuotedUnclosed

theorem endsLine_mark (q : Quote) : endsLine q.mark = false := by
  cases q with
  | single => decide
  | double => decide

end Quote

/-- What may stand between two quotes: other characters, and quotes that are doubled. -/
inductive IsQuotedBody (quote : Char) : List Char → Prop where
  | empty : IsQuotedBody quote []
  | other {c : Char} {body : List Char} (hc : c ≠ quote) (hbody : IsQuotedBody quote body) :
      IsQuotedBody quote (c :: body)
  | doubled {body : List Char} (hbody : IsQuotedBody quote body) :
      IsQuotedBody quote (quote :: quote :: body)

/-- The longest beginning of a text without a line break. -/
def firstLine (cs : List Char) : List Char := cs.takeWhile fun c => !endsLine c

/-- A beginning of the first line of a text is a string, and no further quote follows it. -/
def BeginsWithString (quote : Char) (text s : List Char) : Prop :=
  ∃ body rest, s = quote :: (body ++ [quote]) ∧ IsQuotedBody quote body ∧ s <+: firstLine text ∧
    s ++ rest = text ∧ rest.head? ≠ some quote

/-! ### First lines -/

theorem onLine_firstLine (cs : List Char) : OnLine (firstLine cs) :=
  onLine_takeWhile (fun c hc => by simpa using hc) cs

theorem firstLine_append {front : List Char} (h : OnLine front) (back : List Char) :
    firstLine (front ++ back) = front ++ firstLine back :=
  List.takeWhile_append_of_pos fun c hc => by simp [h c hc]

theorem firstLine_cons {c : Char} (h : ¬ endsLine c = true) (cs : List Char) :
    firstLine (c :: cs) = c :: firstLine cs :=
  List.takeWhile_cons_of_pos (by simpa using h)

theorem firstLine_stopped {c : Char} (h : endsLine c = true) (cs : List Char) :
    firstLine (c :: cs) = [] :=
  List.takeWhile_cons_of_neg (by simpa using h)

theorem OnLine.of_isPrefix {front cs : List Char} (h : OnLine cs) (hfront : front <+: cs) :
    OnLine front :=
  fun c hc => h c (hfront.subset hc)

/-! ### Reading a string -/

variable {quote : Char}

/-- A string is closed by a quote that no other one follows. -/
theorem quotedBody_of_closing {body rest : List Char} (hbody : IsQuotedBody quote body)
    (hquote : endsLine quote = false) (hline : OnLine body) (hrest : rest.head? ≠ some quote) :
    quotedBody quote (body ++ quote :: rest) = ⟨body ++ [quote], rest, true⟩ := by
  have hquote' : ¬ endsLine quote = true := by simp [hquote]
  induction hbody with
  | empty => exact quotedBody_closing hquote' hrest
  | @other c body hc hbody ih =>
      obtain ⟨hc', hline⟩ := onLine_cons.1 hline
      rw [List.cons_append, quotedBody_cons_other (by simp [hc']) hc, ih hline]
      rfl
  | @doubled body hbody ih =>
      have hline : OnLine body := (onLine_cons.1 (onLine_cons.1 hline).2).2
      rw [List.cons_append, List.cons_append, quotedBody_doubled hquote', ih hline]
      rfl

/-- What is read as a closed string obeys the rule. -/
theorem closing_of_quotedBody {cs : List Char} (h : (quotedBody quote cs).closed = true) :
    ∃ body, (quotedBody quote cs).body = body ++ [quote] ∧ IsQuotedBody quote body ∧
      (quotedBody quote cs).rest.head? ≠ some quote := by
  fun_induction quotedBody quote cs with
  | case1 | case2 | case4 | case5 => cases h
  | case3 => exact ⟨[], rfl, .empty, by simp⟩
  | case6 cs hline ih =>
      obtain ⟨body, hbody, hrule, hrest⟩ := ih h
      exact ⟨quote :: quote :: body, by simp [Quoted.ahead, hbody], .doubled hrule, hrest⟩
  | case7 d cs hd hline => exact ⟨[], rfl, .empty, by simpa using hd⟩
  | case8 c d cs hline hc ih =>
      obtain ⟨body, hbody, hrule, hrest⟩ := ih h
      exact ⟨c :: body, by simp [Quoted.ahead, hbody], .other hc hrule, hrest⟩

/-- What is read as an unclosed string goes on to the end of the line. -/
theorem quotedBody_of_unclosed {cs : List Char} (h : (quotedBody quote cs).closed = false) :
    (quotedBody quote cs).body = firstLine cs := by
  fun_induction quotedBody quote cs with
  | case1 => rfl
  | case2 c hline | case5 c d cs hline => rw [firstLine_stopped hline]
  | case3 | case7 => cases h
  | case4 c hline hc => rw [firstLine_cons hline]; rfl
  | case6 cs hline ih =>
      rw [firstLine_cons hline, firstLine_cons hline, ← ih h]
      rfl
  | case8 c d cs hline hc ih =>
      rw [firstLine_cons hline, ← ih h]
      rfl

/-! ### A string at the beginning of a text -/

section Beginning

variable {q : Quote} {cs s s' : List Char}

theorem scan_of_quote (q : Quote) (cs : List Char) :
    scan q.mark cs = quoted q.mark q.closed q.unclosed cs := by
  cases q with
  | single =>
      show scan '\'' cs = quoted '\'' .singleQuoted .singleQuotedUnclosed cs
      rw [scan, if_neg (by decide), if_neg (by simp), if_neg (by simp), if_pos rfl]
  | double =>
      show scan '"' cs = quoted '"' .doubleQuoted .doubleQuotedUnclosed cs
      rw [scan, if_neg (by decide), if_neg (by simp), if_neg (by simp), if_neg (by decide), if_pos rfl]

/-- The string at the beginning of a text is what is read there. -/
theorem scan_of_begins (h : BeginsWithString q.mark (q.mark :: cs) s) :
    ∃ rest, scan q.mark cs = ⟨q.closed, s, rest, none⟩ := by
  obtain ⟨body, rest, rfl, hbody, hfirst, htext, hrest⟩ := h
  have hline : OnLine body := by
    have hall := (onLine_firstLine _).of_isPrefix hfirst
    exact (onLine_append.1 (onLine_cons.1 hall).2).1
  have hcs : cs = body ++ q.mark :: rest := by simpa using htext.symm
  refine ⟨rest, ?_⟩
  rw [scan_of_quote, quoted, hcs, quotedBody_of_closing hbody q.endsLine_mark hline hrest]
  rfl

/-- At most one beginning of a text is a string. -/
theorem eq_of_beginsWithString (h : BeginsWithString q.mark (q.mark :: cs) s)
    (h' : BeginsWithString q.mark (q.mark :: cs) s') : s = s' := by
  obtain ⟨rest, hscan⟩ := scan_of_begins h
  obtain ⟨rest', hscan'⟩ := scan_of_begins h'
  exact (Lexeme.mk.inj (hscan.symm.trans hscan')).2.1

/-- If no beginning of a text is a string, its first line is read as an unclosed one. -/
theorem scan_of_not_begins (h : ∀ s, ¬ BeginsWithString q.mark (q.mark :: cs) s) :
    ∃ rest, scan q.mark cs
      = ⟨q.unclosed, firstLine (q.mark :: cs), rest, some .unclosedString⟩ := by
  have hmark : ¬ endsLine q.mark = true := by simp [q.endsLine_mark]
  rw [scan_of_quote, quoted]
  cases hclosed : (quotedBody q.mark cs).closed with
  | true =>
      -- What is read as closed is a string by the rule, and the text would begin with it.
      obtain ⟨body, hbody, hrule, hrest⟩ := closing_of_quotedBody hclosed
      have hcs := quotedBody_append q.mark cs
      have hline := quotedBody_onLine q.mark cs
      rw [hbody] at hcs hline
      generalize (quotedBody q.mark cs).rest = rest at hcs hrest
      subst hcs
      refine absurd ⟨body, rest, rfl, hrule, ?_, rfl, hrest⟩ (h (q.mark :: (body ++ [q.mark])))
      rw [firstLine_cons hmark, firstLine_append hline]
      exact List.prefix_append (q.mark :: (body ++ [q.mark])) _
  | false =>
      refine ⟨(quotedBody q.mark cs).rest, ?_⟩
      rw [firstLine_cons hmark, ← quotedBody_of_unclosed hclosed, ofQuoted, hclosed]
      rfl

end Beginning

/-! ### Writing a string -/

/-- A content with every quote doubled. -/
def doubleQuotes (quote : Char) (content : List Char) : List Char :=
  content.flatMap fun c => if c = quote then [c, c] else [c]

def enclose (quote : Char) (content : List Char) : List Char :=
  quote :: (doubleQuotes quote content ++ [quote])

theorem isQuotedBody_doubleQuotes (quote : Char) (content : List Char) :
    IsQuotedBody quote (doubleQuotes quote content) := by
  induction content with
  | nil => exact .empty
  | cons c content ih =>
      rw [doubleQuotes, List.flatMap_cons]
      split
      · rename_i hc
        rw [hc]
        exact .doubled ih
      · rename_i hc
        exact .other hc ih

theorem onLine_doubleQuotes {content : List Char} (h : OnLine content) (quote : Char) :
    OnLine (doubleQuotes quote content) := by
  intro c hc
  obtain ⟨d, hd, hmem⟩ := List.mem_flatMap.1 hc
  have hcd : c = d := by
    split at hmem
    · simpa using hmem
    · simpa using hmem
  rw [hcd]
  exact h d hd

/-- A content that is written as a string is a string in front of anything but another quote. -/
theorem begins_enclose (q : Quote) {content rest : List Char} (hline : OnLine content)
    (hrest : rest.head? ≠ some q.mark) :
    BeginsWithString q.mark (enclose q.mark content ++ rest) (enclose q.mark content) := by
  refine ⟨_, rest, rfl, isQuotedBody_doubleQuotes _ _, ?_, rfl, hrest⟩
  have hall : OnLine (enclose q.mark content) := by
    refine onLine_cons.2 ⟨q.endsLine_mark, onLine_append.2 ⟨onLine_doubleQuotes hline _, ?_⟩⟩
    exact onLine_cons.2 ⟨q.endsLine_mark, onLine_nil⟩
  rw [firstLine_append hall]
  exact List.prefix_append _ _

end Lexeme

open Lexeme

/-! ### Tokens -/

section Tokens

variable {q : Quote} {text : String} {s : List Char}

/-- A string at the beginning of a text is its first token, and has no fault. -/
theorem tokenize_of_string (h : BeginsWithString q.mark text.toList s) :
    ∃ t more, (tokenize text).1 = t :: more ∧ t.kind = q.closed ∧ t.text.toList = s ∧
      ∀ f ∈ (tokenize text).2, f.token ≠ t := by
  obtain ⟨cs, htext⟩ : ∃ cs, text.toList = q.mark :: cs := by
    obtain ⟨body, rest, rfl, -, -, htext, -⟩ := h
    exact ⟨_, htext.symm⟩
  rw [htext] at h
  obtain ⟨rest, hscan⟩ := scan_of_begins h
  obtain ⟨t, more, htokens, hkind, hspelling, hfaults⟩ :=
    exists_first_token_of_faultless htext (by rw [hscan])
  rw [hscan] at hkind hspelling
  exact ⟨t, more, htokens, hkind, hspelling, hfaults⟩

/-- The first line of a text that opens with a quote and does not begin with a string is its first token,
with one fault. -/
theorem tokenize_of_no_string (hquote : text.toList.head? = some q.mark)
    (h : ∀ s, ¬ BeginsWithString q.mark text.toList s) :
    ∃ t more, (tokenize text).1 = t :: more ∧ t.kind = q.unclosed ∧
      t.text.toList = firstLine text.toList ∧
      (tokenize text).2.filter (fun f => f.token == t) = [⟨.unclosedString, t⟩] := by
  obtain ⟨cs, htext⟩ := List.head?_eq_some_iff.1 hquote
  rw [htext] at h ⊢
  obtain ⟨rest, hscan⟩ := scan_of_not_begins h
  obtain ⟨t, more, htokens, hkind, hspelling, hfaults⟩ := exists_first_token htext
  rw [hscan] at hkind hspelling hfaults
  exact ⟨t, more, htokens, hkind, hspelling, hfaults⟩

end Tokens

/-- **Quoted strings are recognised exactly and never span lines.**  Of a text that begins with a quote, at
most one beginning is a string.  If there is one, it is the first token, a closed string without a fault.
If there is none, the first line is the first token, an unclosed string with one fault.  So every content
without a line break is read back when it stands between two quotes with every quote in it doubled, in front
of any text that does not begin with that quote. -/
theorem strings_close_exactly (q : Quote) :
    (∀ text : String, text.toList.head? = some q.mark →
      (∀ s s', BeginsWithString q.mark text.toList s → BeginsWithString q.mark text.toList s' → s = s') ∧
      (∀ s, BeginsWithString q.mark text.toList s → ∃ t more, (tokenize text).1 = t :: more ∧
        t.kind = q.closed ∧ t.text.toList = s ∧ ∀ f ∈ (tokenize text).2, f.token ≠ t) ∧
      ((∀ s, ¬ BeginsWithString q.mark text.toList s) → ∃ t more, (tokenize text).1 = t :: more ∧
        t.kind = q.unclosed ∧ t.text.toList = firstLine text.toList ∧
        (tokenize text).2.filter (fun f => f.token == t) = [⟨.unclosedString, t⟩])) ∧
    ∀ content rest : List Char, OnLine content → rest.head? ≠ some q.mark →
      ∃ t more, (tokenize (String.ofList (enclose q.mark content ++ rest))).1 = t :: more ∧
        t.kind = q.closed ∧ t.text.toList = enclose q.mark content ∧
        ∀ f ∈ (tokenize (String.ofList (enclose q.mark content ++ rest))).2, f.token ≠ t := by
  constructor
  · intro text hquote
    refine ⟨fun s s' => ?_, fun s => tokenize_of_string, tokenize_of_no_string hquote⟩
    obtain ⟨cs, htext⟩ := List.head?_eq_some_iff.1 hquote
    rw [htext]
    exact eq_of_beginsWithString
  · intro content rest hline hrest
    apply tokenize_of_string
    rw [String.toList_ofList]
    exact begins_enclose q hline hrest

/-- In the first text a string holds a doubled quote and the other quote.  In the second text the last quote
of the line is half of a doubled one, so the string stays open. -/
theorem strings_close_exactly_doubled :
    (∃ t more, (tokenize "'it''s \"x'\"y").1 = t :: more ∧ t.kind = .singleQuoted ∧
      t.text = "'it''s \"x'") ∧
    ∃ t more, (tokenize "'a''\n'").1 = t :: more ∧ t.kind = .singleQuotedUnclosed ∧ t.text = "'a''" ∧
      (tokenize "'a''\n'").2.filter (fun f => f.token == t) = [⟨.unclosedString, t⟩] := by
  constructor
  · have hline : OnLine ['i', 't', '\'', 's', ' ', '"', 'x'] := by simp [OnLine, endsLine]
    obtain ⟨t, more, htokens, hkind, htext, -⟩ :=
      (strings_close_exactly .single).2 _ ['"', 'y'] hline (by decide)
    exact ⟨t, more, htokens, hkind, String.toList_injective htext⟩
  · have hread : scan '\'' "a''\n'".toList
        = ⟨.singleQuotedUnclosed, "'a''".toList, "\n'".toList, some .unclosedString⟩ := by decide
    have hnone (s : List Char) : ¬ BeginsWithString Quote.single.mark "'a''\n'".toList s := by
      intro hbegins
      obtain ⟨rest, hscan⟩ := scan_of_begins (q := .single) hbegins
      cases hread.symm.trans hscan
    obtain ⟨-, -, hopen⟩ := (strings_close_exactly .single).1 "'a''\n'" (by decide)
    obtain ⟨t, more, htokens, hkind, htext, hfaults⟩ := hopen hnone
    exact ⟨t, more, htokens, hkind, String.toList_injective htext, hfaults⟩

end RexxService
