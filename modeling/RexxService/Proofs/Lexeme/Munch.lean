import Mathlib.Data.List.Infix
import RexxService.Proofs.Lexeme.LineBreaks

/-!
# Lexemes in shorter texts

A lexeme is decided by its own characters and by what follows them, as far as the scanner looks ahead.
If the text behind it is cut off somewhere, or altogether, the scanner still reads the same lexeme.

* **`Stable`** — a reader finds the same part in every text between that part and the whole; runs,
  the parts of a number and, by **`Stable.andThen`**, the number itself are read in this way;
* **`commentBody_stable`**, **`quotedBody_stable`**, **`operator?_stable`** — the same for comments,
  strings and operators;
* **`withRest`**, **`scan_stable`** — so every lexeme is read again from each beginning of the text that
  holds it.
-/

namespace RexxService.Lexeme

open RexxService.Text

def withRest (x : Lexeme) (back : List Char) : Lexeme := { x with rest := back }

@[simp] theorem withRest_kind (x : Lexeme) (back : List Char) : (x.withRest back).kind = x.kind := rfl

@[simp] theorem withRest_text (x : Lexeme) (back : List Char) : (x.withRest back).text = x.text := rfl

@[simp] theorem withRest_rest (x : Lexeme) (back : List Char) : (x.withRest back).rest = back := rfl

@[simp] theorem withRest_fault (x : Lexeme) (back : List Char) : (x.withRest back).fault = x.fault :=
  rfl

/-! ### Readers -/

/-- A reader finds the same part again when the text behind that part is cut off somewhere. -/
def Stable (read : List Char → List Char × List Char) : Prop :=
  ∀ cs back, back <+: (read cs).2 → read ((read cs).1 ++ back) = ((read cs).1, back)

/-- Reads one part and then another, and puts the two together. -/
def andThen (first second : List Char → List Char × List Char) (cs : List Char) :
    List Char × List Char :=
  ((first cs).1 ++ (second (first cs).2).1, (second (first cs).2).2)

/-- Two readers in turn are stable if each of them is and the second loses nothing. -/
theorem Stable.andThen {first second : List Char → List Char × List Char} (hfirst : Stable first)
    (hsecond : Stable second) (happend : ∀ cs, (second cs).1 ++ (second cs).2 = cs) :
    Stable (andThen first second) := by
  intro cs back hback
  have hback : back <+: (second (first cs).2).2 := hback
  have hrest : (second (first cs).2).1 ++ back <+: (first cs).2 := by
    have h := (List.prefix_append_right_inj (second (first cs).2).1).2 hback
    rw [happend] at h
    exact h
  have hread := hfirst cs _ hrest
  have hread' := hsecond (first cs).2 back hback
  simp only [Lexeme.andThen, List.append_assoc, hread, hread']

/-- What begins a beginning of a text begins the text. -/
theorem head?_of_isPrefix {cs back : List Char} {b : Char} (h : back <+: cs)
    (hb : back.head? = some b) : cs.head? = some b := by
  obtain ⟨more, rfl⟩ := h
  rw [List.head?_append, hb]
  rfl

theorem stable_run (p : Char → Bool) : Stable (run p) := by
  intro cs back hback
  have hback : back <+: cs.dropWhile p := hback
  have hall : ∀ c ∈ cs.takeWhile p, p c = true := fun c hc => List.mem_takeWhile_imp hc
  show ((cs.takeWhile p ++ back).takeWhile p, (cs.takeWhile p ++ back).dropWhile p)
    = (cs.takeWhile p, back)
  rw [List.takeWhile_append_of_pos hall, List.dropWhile_append_of_pos hall]
  cases back with
  | nil => simp
  | cons b back =>
      -- The character that stopped the run stands behind it still.
      have hnot := List.head?_dropWhile_not p cs
      rw [head?_of_isPrefix hback rfl] at hnot
      have hb : p b = false := by simpa using hnot
      simp [hb]

/-- Digits are read again in front of what is left of the text behind them. -/
theorem takeWhile_isDigit_append {cs back : List Char} (h : back <+: cs.dropWhile isDigit) :
    (cs.takeWhile isDigit ++ back).takeWhile isDigit = cs.takeWhile isDigit ∧
      (cs.takeWhile isDigit ++ back).dropWhile isDigit = back :=
  Prod.mk.inj (stable_run isDigit cs back h)

theorem stable_fractionPart : Stable fractionPart := by
  intro cs back
  fun_cases fractionPart cs with
  | case1 =>
      intro hback
      rw [List.prefix_nil.1 hback]
      rfl
  | case2 cs =>
      intro hback
      simp [fractionPart, takeWhile_isDigit_append hback]
  | case3 c cs hc =>
      intro hback
      cases back with
      | nil => rfl
      | cons b back =>
          obtain ⟨rfl, -⟩ := List.cons_prefix_cons.1 hback
          simp [fractionPart, hc]

/-- Whether there is a sign is decided by the first character. -/
theorem signLength_congr {cs ds : List Char} (h : cs.head? = ds.head?) :
    signLength cs = signLength ds := by
  cases cs with
  | nil => rw [List.head?_eq_none_iff.1 h.symm]
  | cons c cs =>
      obtain ⟨es, rfl⟩ := List.head?_eq_some_iff.1 h.symm
      rfl

theorem signLength_le (cs : List Char) : signLength cs ≤ cs.length := by
  cases cs with
  | nil => exact Nat.le_refl 0
  | cons c cs =>
      rw [signLength, List.length_cons]
      split <;> omega

/-- A text without an exponent does not get one by being cut off. -/
theorem exponentPart_of_isPrefix {c : Char} {cs back : List Char} (hback : back <+: cs)
    (h : ¬ ((c = 'e' ∨ c = 'E') ∧ ((cs.drop (signLength cs)).head?.any isDigit) = true)) :
    exponentPart (c :: back) = ([], c :: back) := by
  rw [exponentPart]
  refine if_neg fun hexponent => h ⟨hexponent.1, ?_⟩
  obtain ⟨d, hd, hdigit⟩ := (Option.any_eq_true _ _).1 hexponent.2
  have hsign : signLength back = signLength cs := by
    cases back with
    | nil => simp at hd
    | cons b back => exact signLength_congr (head?_of_isPrefix hback rfl).symm
  rw [hsign] at hd
  rw [head?_of_isPrefix (hback.drop _) hd]
  exact hdigit

/-- An exponent is read again in front of what is left of the text behind it. -/
theorem exponentPart_append_of_digits {c : Char} {cs back : List Char} (hmark : c = 'e' ∨ c = 'E')
    (hdigit : ((cs.drop (signLength cs)).head?.any isDigit) = true)
    (hback : back <+: (cs.drop (signLength cs)).dropWhile isDigit) :
    exponentPart (c :: (cs.take (signLength cs) ++ (cs.drop (signLength cs)).takeWhile isDigit) ++ back)
      = (c :: (cs.take (signLength cs) ++ (cs.drop (signLength cs)).takeWhile isDigit), back) := by
  generalize hdigits : cs.drop (signLength cs) = digits at hdigit hback ⊢
  have hread := takeWhile_isDigit_append hback
  have hfirst : (digits.takeWhile isDigit ++ back).head? = digits.head? := by
    obtain ⟨d, hd, hd'⟩ := (Option.any_eq_true _ _).1 hdigit
    obtain ⟨ds, rfl⟩ := List.head?_eq_some_iff.1 hd
    simp [hd']
  have hsign : signLength (cs.take (signLength cs) ++ (digits.takeWhile isDigit ++ back))
      = signLength cs := by
    apply signLength_congr
    rw [List.head?_append, hfirst, ← List.head?_append, ← hdigits, List.take_append_drop]
  have hlength : (cs.take (signLength cs)).length = signLength cs := by
    rw [List.length_take, Nat.min_eq_left (signLength_le cs)]
  rw [List.cons_append, List.append_assoc, exponentPart]
  rw [hsign, List.take_left' hlength, List.drop_left' hlength, hfirst, if_pos ⟨hmark, hdigit⟩, hread.1,
    hread.2]

theorem stable_exponentPart : Stable exponentPart := by
  intro cs back
  fun_cases exponentPart cs with
  | case1 =>
      intro hback
      rw [List.prefix_nil.1 hback]
      rfl
  | case2 c cs sign digits h =>
      intro hback
      exact exponentPart_append_of_digits h.1 h.2 hback
  | case3 c cs digits h =>
      intro hback
      cases back with
      | nil => rfl
      | cons b back =>
          obtain ⟨rfl, hrest⟩ := List.cons_prefix_cons.1 hback
          exact exponentPart_of_isPrefix hrest h

theorem numberParts_eq :
    numberParts = andThen (andThen (andThen (run isDigit) fractionPart) exponentPart) tailPart := rfl

theorem stable_numberParts : Stable numberParts := by
  rw [numberParts_eq]
  have hwhole := (stable_run isDigit).andThen stable_fractionPart fractionPart_append
  have hexponent := hwhole.andThen stable_exponentPart exponentPart_append
  exact hexponent.andThen (stable_run continuesNumber) (run_append continuesNumber)

/-! ### Strings and comments -/

theorem quotedBody_cons_other {quote c : Char} (hline : ¬ endsLine c = true) (hc : c ≠ quote)
    (cs : List Char) : quotedBody quote (c :: cs) = (quotedBody quote cs).ahead [c] := by
  cases cs with
  | nil => simp [quotedBody, hline, hc, Quoted.ahead]
  | cons d cs => rw [quotedBody, if_neg hline, if_neg hc]

theorem quotedBody_doubled {quote : Char} (hline : ¬ endsLine quote = true) (cs : List Char) :
    quotedBody quote (quote :: quote :: cs) = (quotedBody quote cs).ahead [quote, quote] := by
  rw [quotedBody, if_neg hline, if_pos rfl, if_pos rfl]

/-- A closing quote closes a string in front of anything but another quote. -/
theorem quotedBody_closing {quote : Char} (hline : ¬ endsLine quote = true) {cs : List Char}
    (hcs : cs.head? ≠ some quote) : quotedBody quote (quote :: cs) = ⟨[quote], cs, true⟩ := by
  cases cs with
  | nil => rw [quotedBody, if_neg hline, if_pos rfl]
  | cons d cs =>
      have hd : d ≠ quote := fun h => hcs (by rw [h]; rfl)
      rw [quotedBody, if_neg hline, if_pos rfl, if_neg hd]

/-- A string stops in front of a line break and at the end of the text. -/
theorem quotedBody_stopped {quote : Char} {cs : List Char}
    (hcs : ∀ c ∈ cs.head?, endsLine c = true) : quotedBody quote cs = ⟨[], cs, false⟩ := by
  fun_cases quotedBody quote cs with
  | case1 => rfl
  | case2 c h => rfl
  | case5 c d cs h => rfl
  | _ => simp_all

theorem quotedBody_stable (quote : Char) (cs : List Char) {back : List Char} :
    back <+: (quotedBody quote cs).rest → quotedBody quote ((quotedBody quote cs).body ++ back)
      = ⟨(quotedBody quote cs).body, back, (quotedBody quote cs).closed⟩ := by
  fun_induction quotedBody quote cs with
  | case1 =>
      intro hback
      rw [List.prefix_nil.1 hback]
      rfl
  | case2 c h | case5 c d cs h =>
      intro hback
      refine quotedBody_stopped fun b hb => ?_
      obtain rfl : c = b := Option.some.inj (head?_of_isPrefix hback hb)
      exact h
  | case3 hline =>
      intro hback
      rw [List.prefix_nil.1 hback]
      exact quotedBody_closing hline (by simp)
  | case4 c hline hc =>
      intro hback
      rw [List.prefix_nil.1 hback]
      exact quotedBody_cons_other hline hc []
  | case6 cs hline ih =>
      intro hback
      show quotedBody quote (quote :: quote :: ((quotedBody quote cs).body ++ back)) = _
      rw [quotedBody_doubled hline, ih hback]
      rfl
  | case7 d cs hd hline =>
      intro hback
      refine quotedBody_closing hline fun hb => hd ?_
      exact Option.some.inj (head?_of_isPrefix hback hb)
  | case8 c d cs hline hc ih =>
      intro hback
      show quotedBody quote (c :: ((quotedBody quote (d :: cs)).body ++ back)) = _
      rw [quotedBody_cons_other hline hc, ih hback]
      rfl

/-- A closed comment is closed in front of any text. -/
theorem commentBody_stable {depth : Nat} {cs body rest : List Char}
    (h : commentBody depth cs = some (body, rest)) (back : List Char) :
    commentBody depth (body ++ back) = some (body, back) := by
  fun_induction commentBody depth cs generalizing body with
  | case1 cs =>
      cases h
      rw [List.nil_append, commentBody]
  | case2 => cases h
  | case3 depth cs ih =>
      obtain ⟨⟨b, r⟩, hb, he⟩ := Option.map_eq_some_iff.1 h
      cases he
      show commentBody (depth + 1) ('/' :: '*' :: (b ++ back)) = _
      rw [commentBody, ih hb]
      rfl
  | case4 depth cs ih =>
      obtain ⟨⟨b, r⟩, hb, he⟩ := Option.map_eq_some_iff.1 h
      cases he
      show commentBody (depth + 1) ('*' :: '/' :: (b ++ back)) = _
      rw [commentBody, ih hb]
      rfl
  | case5 depth c cs hopen hclose ih =>
      obtain ⟨⟨b, r⟩, hb, he⟩ := Option.map_eq_some_iff.1 h
      cases he
      -- The comment goes on behind this character, so the next one is the same as before.
      have hne : b ≠ [] := by
        rintro rfl
        cases commentBody_getLast hb (Nat.succ_pos depth)
      obtain ⟨e, b, rfl⟩ := List.exists_cons_of_ne_nil hne
      have hcs := commentBody_append hb
      show commentBody (depth + 1) (c :: e :: (b ++ back)) = _
      rw [commentBody, ← List.cons_append, ih hb]
      · rfl
      · rintro ds rfl heq
        exact hopen (b ++ r) rfl (by rw [← hcs, (List.cons.inj heq).1]; rfl)
      · rintro ds rfl heq
        exact hclose (b ++ r) rfl (by rw [← hcs, (List.cons.inj heq).1]; rfl)

theorem exists_comment_text (cs : List Char) :
    ∃ body, (comment cs).text = '/' :: '*' :: body := by
  rw [comment]
  split
  · exact ⟨_, rfl⟩
  · exact ⟨_, rfl⟩

theorem comment_stable (cs : List Char) {body back : List Char}
    (htext : (comment cs).text = '/' :: '*' :: body) (hback : back <+: (comment cs).rest) :
    comment (body ++ back) = (comment cs).withRest back := by
  revert htext hback
  fun_cases comment cs with
  | case1 closed rest h =>
      intro htext hback
      obtain rfl : closed = body := by simpa using htext
      rw [comment, commentBody_stable h back]
      rfl
  | case2 h =>
      intro htext hback
      obtain rfl : cs = body := by simpa using htext
      rw [List.prefix_nil.1 hback, List.append_nil, comment, h]
      rfl

theorem quoted_stable (quote : Char) (closed unclosed : Token.Kind) (cs : List Char)
    {body back : List Char} (htext : (quoted quote closed unclosed cs).text = quote :: body)
    (hback : back <+: (quoted quote closed unclosed cs).rest) :
    quoted quote closed unclosed (body ++ back)
      = (quoted quote closed unclosed cs).withRest back := by
  obtain rfl : (quotedBody quote cs).body = body := (List.cons.inj htext).2
  rw [quoted, quotedBody_stable quote cs hback]
  rfl

/-! ### Operators -/

/-- The first operator that begins a text begins every beginning of the text that holds it, and no
operator begins a shorter text only. -/
theorem operator?_stable {cs spelling : List Char} {kind : Token.Kind}
    (h : operator? cs = some (spelling, kind)) {front : List Char} (hfront : front <+: cs)
    (hspelling : spelling <+: front) : operator? front = some (spelling, kind) := by
  obtain ⟨-, before, after, htable, hbefore⟩ := List.find?_eq_some_iff_append.1 h
  refine List.find?_eq_some_iff_append.2
    ⟨List.isPrefixOf_iff_prefix.2 hspelling, before, after, htable, fun o ho => ?_⟩
  have hnot := hbefore o ho
  simp only [Bool.not_eq_true', Bool.eq_false_iff, ne_eq, List.isPrefixOf_iff_prefix] at hnot ⊢
  exact fun hpre => hnot (hpre.trans hfront)

theorem operator?_none_of_isPrefix {cs front : List Char} (h : operator? cs = none)
    (hfront : front <+: cs) : operator? front = none := by
  rw [operator?, List.find?_eq_none] at h ⊢
  intro o ho hpre
  rw [List.isPrefixOf_iff_prefix] at hpre
  exact h o ho (List.isPrefixOf_iff_prefix.2 (hpre.trans hfront))

theorem punctuation_stable (c : Char) (cs : List Char) {ds back : List Char}
    (htext : (punctuation c cs).text = c :: ds) (hback : back <+: (punctuation c cs).rest) :
    punctuation c (ds ++ back) = (punctuation c cs).withRest back := by
  have hfront : c :: (ds ++ back) <+: c :: cs := by
    rw [← List.cons_append, ← htext, ← punctuation_append c cs]
    exact (List.prefix_append_right_inj _).2 hback
  revert htext
  fun_cases punctuation c cs with
  | case1 spelling kind h =>
      rintro rfl
      rw [punctuation, operator?_stable h hfront (List.prefix_append _ _)]
      simp [withRest]
  | case2 h =>
      intro htext
      obtain rfl : ds = [] := (List.cons.inj htext).2.symm
      rw [punctuation, operator?_none_of_isPrefix h hfront]
      rfl

/-! ### Lexemes -/

/-- A lexeme begins with the first character of the text. -/
theorem exists_scan_text (c : Char) (cs : List Char) :
    ∃ ds, (scan c cs).text = c :: ds ∧ cs = ds ++ (scan c cs).rest := by
  have happend := scan_append c cs
  obtain ⟨d, ds, hds⟩ := List.exists_cons_of_ne_nil (scan_text_ne_nil c cs)
  rw [hds, List.cons_append] at happend
  obtain ⟨rfl, hcs⟩ := List.cons.inj happend
  exact ⟨ds, hds, hcs.symm⟩

theorem startsNumber_of_isPrefix {c : Char} {cs front : List Char} (hfront : front <+: cs)
    (h : startsNumber c front = true) : startsNumber c cs = true := by
  rw [startsNumber, Bool.or_eq_true, Bool.and_eq_true, Option.any_eq_true] at h ⊢
  rcases h with hdigit | ⟨hdot, d, hd, hdigit⟩
  · exact Or.inl hdigit
  · exact Or.inr ⟨hdot, d, head?_of_isPrefix hfront hd, hdigit⟩

/-- A number that begins with a dot holds the digit behind the dot. -/
theorem startsNumber_of_text {c : Char} {cs ds : List Char} (h : startsNumber c cs = true)
    (htext : (number (c :: cs)).text = c :: ds) (back : List Char) :
    startsNumber c (ds ++ back) = true := by
  by_cases hc : isDigit c = true
  · rw [startsNumber, hc, Bool.true_or]
  · rw [startsNumber, Bool.or_eq_true, Bool.and_eq_true, Option.any_eq_true] at h ⊢
    obtain ⟨hdot, d, hd, hdigit⟩ := h.resolve_left hc
    obtain ⟨es, rfl⟩ := List.head?_eq_some_iff.1 hd
    obtain rfl := eq_of_beq hdot
    have hfirst : ds.head? = some d := by
      simp [number, ofNumber, numberParts, run, fractionPart, hc, hdigit] at htext
      rw [← htext]
      rfl
    exact Or.inr ⟨hdot, d, by rw [List.head?_append, hfirst]; rfl, hdigit⟩

/-- **A lexeme is read again when the text behind it is cut off.** -/
theorem scan_stable {c : Char} {cs ds back : List Char} (htext : (scan c cs).text = c :: ds)
    (hback : back <+: (scan c cs).rest) : scan c (ds ++ back) = (scan c cs).withRest back := by
  have hfront : ds ++ back <+: cs := by
    obtain ⟨ds', hds', hcs⟩ := exists_scan_text c cs
    obtain rfl : ds = ds' := (List.cons.inj (htext.symm.trans hds')).2
    have h := (List.prefix_append_right_inj ds).2 hback
    rw [← hcs] at h
    exact h
  have hnot {x d : Char} (h : ¬ (c = x ∧ cs.head? = some d)) :
      ¬ (c = x ∧ (ds ++ back).head? = some d) := fun hd => h ⟨hd.1, head?_of_isPrefix hfront hd.2⟩
  revert htext hback
  fun_cases scan c cs with
  | case1 hblank =>
      intro htext hback
      obtain rfl : cs.takeWhile isBlank = ds := (List.cons.inj htext).2
      have hrun := Prod.mk.inj (stable_run isBlank cs back hback)
      simp only [run] at hrun
      rw [scan, if_pos hblank, hrun.1, hrun.2]
      rfl
  | case2 hblank hopen =>
      intro htext hback
      obtain ⟨body, hbody⟩ := exists_comment_text cs.tail
      obtain ⟨-, rfl⟩ := List.cons.inj (htext.symm.trans hbody)
      rw [scan, if_neg hblank, if_pos ⟨hopen.1, rfl⟩]
      exact comment_stable cs.tail hbody hback
  | case3 hblank hopen hclose =>
      intro htext hback
      obtain ⟨rfl, rfl⟩ := List.cons.inj htext
      rw [scan, if_neg hblank, if_neg (hnot hopen), if_pos ⟨rfl, rfl⟩]
      rfl
  | case4 hblank hopen hclose hquote =>
      intro htext hback
      rw [scan, if_neg hblank, if_neg (hnot hopen), if_neg (hnot hclose), if_pos hquote,
        quoted_stable c _ _ cs htext hback]
  | case5 hblank hopen hclose hsingle hquote =>
      intro htext hback
      rw [scan, if_neg hblank, if_neg (hnot hopen), if_neg (hnot hclose), if_neg hsingle, if_pos hquote,
        quoted_stable c _ _ cs htext hback]
  | case6 hblank hopen hclose hsingle hdouble hnumber =>
      intro htext hback
      have hread : numberParts ((c :: ds) ++ back) = (c :: ds, back) := by
        have h := stable_numberParts (c :: cs) back hback
        have hparts : (numberParts (c :: cs)).1 = c :: ds := htext
        rw [hparts] at h
        exact h
      rw [scan, if_neg hblank, if_neg (hnot hopen), if_neg (hnot hclose), if_neg hsingle,
        if_neg hdouble, if_pos (startsNumber_of_text hnumber htext back), number, ← List.cons_append,
        hread, ← htext]
      rfl
  | case7 hblank hopen hclose hsingle hdouble hnumber hsymbol =>
      intro htext hback
      have hnumber' : ¬ startsNumber c (ds ++ back) = true :=
        fun h => hnumber (startsNumber_of_isPrefix hfront h)
      rw [symbol_of_starts hsymbol] at htext hback ⊢
      obtain rfl : cs.takeWhile continuesSymbol = ds := (List.cons.inj htext).2
      have hrun := Prod.mk.inj (stable_run continuesSymbol cs back hback)
      simp only [run] at hrun
      rw [scan, if_neg hblank, if_neg (hnot hopen), if_neg (hnot hclose), if_neg hsingle,
        if_neg hdouble, if_neg hnumber', if_pos hsymbol, symbol_of_starts hsymbol]
      simp only [hrun, withRest]
  | case8 hblank hopen hclose hsingle hdouble hnumber hsymbol =>
      intro htext hback
      have hnumber' : ¬ startsNumber c (ds ++ back) = true :=
        fun h => hnumber (startsNumber_of_isPrefix hfront h)
      rw [scan, if_neg hblank, if_neg (hnot hopen), if_neg (hnot hclose), if_neg hsingle,
        if_neg hdouble, if_neg hnumber', if_neg hsymbol, punctuation_stable c cs htext hback]

end RexxService.Lexeme
