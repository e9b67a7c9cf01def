import Mathlib.Data.List.Find
import RexxService.Proofs.Lexeme.Munch
import RexxService.Proofs.Text.Lowercase

/-!
# Lexemes in another spelling

A text may be spelled with other line breaks, or with its letters in the other case, and the scanner
reads the same lexemes.  A `Respelling` says how every character is spelled anew: a line feed as some
characters that end a line, and every other character as one character that is the same up to the
case of the letters `A` to `Z`.

* **`Keeps`** — a class of characters that a respelling does not change, and **`keeps_of`**, by which all
  classes of the scanner are such classes;
* **`Commutes`** — a reader finds the respelled parts in a respelled text; runs and the parts of a number
  are read in this way, and so are comments, strings and operators;
* **`scan_respell`** — the lexeme of a respelled text is the respelled lexeme, with the same kind and the
  same fault.
-/

namespace RexxService.Lexeme

open RexxService.Text

/-- Another spelling of every character. -/
structure Respelling where
  spell : Char → List Char
  /-- A line feed is spelled as characters that end a line. -/
  lineFeed : spell '\n' ≠ [] ∧ ∀ d ∈ spell '\n', endsLine d = true
  /-- Every other character is spelled as itself, but for the case of a letter. -/
  other : ∀ c, c ≠ '\n' → ∃ d, spell c = [d] ∧ d.toLower = c.toLower

namespace Respelling

variable (σ : Respelling)

def apply (cs : List Char) : List Char := cs.flatMap σ.spell

def parts (p : List Char × List Char) : List Char × List Char := (σ.apply p.1, σ.apply p.2)

@[simp] theorem apply_nil : σ.apply [] = [] := rfl

@[simp] theorem apply_cons (c : Char) (cs : List Char) :
    σ.apply (c :: cs) = σ.spell c ++ σ.apply cs := List.flatMap_cons

@[simp] theorem apply_append (cs ds : List Char) : σ.apply (cs ++ ds) = σ.apply cs ++ σ.apply ds :=
  List.flatMap_append

/-- No character is dropped. -/
theorem exists_spell (c : Char) : ∃ d ds, σ.spell c = d :: ds := by
  refine List.exists_cons_of_ne_nil ?_
  by_cases hc : c = '\n'
  · rw [hc]
    exact σ.lineFeed.1
  · obtain ⟨d, hd, -⟩ := σ.other c hc
    rw [hd]
    exact List.cons_ne_nil _ _

/-! ### Classes of characters -/

/-- Characters are in a class before and after they are spelled anew, or at neither time. -/
def Keeps (p : Char → Bool) : Prop := ∀ c, ∀ d ∈ σ.spell c, p d = p c

variable {σ}

/-- A class is kept if it tells neither the case of letters nor one line break from the other. -/
theorem keeps_of {p : Char → Bool} (hcase : ignoresCase p = true)
    (hbreak : p '\r' = p '\n') : σ.Keeps p := by
  intro c d hd
  by_cases hc : c = '\n'
  · subst hc
    rcases endsLine_iff.1 (σ.lineFeed.2 d hd) with rfl | rfl
    · exact hbreak
    · rfl
  · obtain ⟨e, he, hlower⟩ := σ.other c hc
    rw [he, List.mem_singleton] at hd
    rw [hd, ← apply_toLower p hcase e, hlower, apply_toLower p hcase c]

theorem keeps_isBlank : σ.Keeps isBlank := keeps_of (by decide) (by decide)

theorem keeps_isDigit : σ.Keeps isDigit := keeps_of (by decide) (by decide)

theorem keeps_endsLine : σ.Keeps endsLine := keeps_of (by decide) (by decide)

theorem keeps_startsSymbol : σ.Keeps startsSymbol := keeps_of (by decide) (by decide)

theorem keeps_continuesSymbol : σ.Keeps continuesSymbol := keeps_of (by decide) (by decide)

theorem keeps_continuesNumber : σ.Keeps continuesNumber := keeps_of (by decide) (by decide)

/-- A mark that is kept is spelled as itself. -/
theorem spell_of_keeps {m : Char} (hm : m ≠ '\n') (h : σ.Keeps (· == m)) : σ.spell m = [m] := by
  obtain ⟨d, hd, -⟩ := σ.other m hm
  have hdm := h m d (by rw [hd]; exact List.mem_singleton_self d)
  rw [hd, eq_of_beq (hdm.trans (beq_self_eq_true m))]

theorem head?_any_apply {p : Char → Bool} (h : σ.Keeps p) (cs : List Char) :
    (σ.apply cs).head?.any p = cs.head?.any p := by
  cases cs with
  | nil => rfl
  | cons c cs =>
      obtain ⟨d, ds, hd⟩ := σ.exists_spell c
      rw [apply_cons, hd]
      exact h c d (by rw [hd]; exact List.mem_cons_self)

theorem head?_apply_eq_iff {m : Char} (h : σ.Keeps (· == m)) (cs : List Char) :
    (σ.apply cs).head? = some m ↔ cs.head? = some m := by
  have hany (ds : List Char) : ds.head? = some m ↔ ds.head?.any (· == m) = true := by
    cases ds with
    | nil => simp
    | cons d ds => simp
  rw [hany, hany, head?_any_apply h]

/-! ### Readers -/

variable (σ) in
/-- A reader finds the respelled parts in a respelled text. -/
def Commutes (read : List Char → List Char × List Char) : Prop :=
  ∀ cs, read (σ.apply cs) = σ.parts (read cs)

theorem Commutes.andThen {first second : List Char → List Char × List Char}
    (hfirst : σ.Commutes first) (hsecond : σ.Commutes second) :
    σ.Commutes (andThen first second) := by
  intro cs
  simp only [Lexeme.andThen, hfirst cs, parts, hsecond (first cs).2, apply_append]

theorem commutes_run {p : Char → Bool} (h : σ.Keeps p) : σ.Commutes (run p) := by
  intro cs
  induction cs with
  | nil => rfl
  | cons c cs ih =>
      simp only [run, parts, Prod.mk.injEq] at ih
      cases hc : p c with
      | true =>
          have hall : ∀ d ∈ σ.spell c, p d = true := fun d hd => (h c d hd).trans hc
          simp [run, parts, hc, List.takeWhile_append_of_pos hall, List.dropWhile_append_of_pos hall,
            ih.1, ih.2]
      | false =>
          obtain ⟨d, ds, hd⟩ := σ.exists_spell c
          have hpd : p d = false := by
            rw [h c d (by rw [hd]; exact List.mem_cons_self), hc]
          simp [run, parts, hc, hd, hpd]

theorem takeWhile_apply {p : Char → Bool} (h : σ.Keeps p) (cs : List Char) :
    (σ.apply cs).takeWhile p = σ.apply (cs.takeWhile p) := (Prod.mk.inj (commutes_run h cs)).1

theorem dropWhile_apply {p : Char → Bool} (h : σ.Keeps p) (cs : List Char) :
    (σ.apply cs).dropWhile p = σ.apply (cs.dropWhile p) := (Prod.mk.inj (commutes_run h cs)).2

theorem commutes_fractionPart : σ.Commutes fractionPart := by
  have hdot : σ.Keeps (· == '.') := keeps_of (by decide) (by decide)
  intro cs
  cases cs with
  | nil => rfl
  | cons c cs =>
      by_cases hc : c = '.'
      · subst hc
        simp [fractionPart, parts, spell_of_keeps (by decide) hdot, takeWhile_apply keeps_isDigit,
          dropWhile_apply keeps_isDigit]
      · obtain ⟨d, ds, hd⟩ := σ.exists_spell c
        have hne : d ≠ '.' := by
          have hkeeps := hdot c d (by rw [hd]; exact List.mem_cons_self)
          simpa [hc] using hkeeps
        simp [fractionPart, parts, hc, hd, hne]

/-- The sign of an exponent is spelled as itself. -/
theorem sign_apply (cs : List Char) :
    (σ.apply cs).take (signLength (σ.apply cs)) = σ.apply (cs.take (signLength cs)) ∧
      (σ.apply cs).drop (signLength (σ.apply cs)) = σ.apply (cs.drop (signLength cs)) := by
  have hplus : σ.Keeps (· == '+') := keeps_of (by decide) (by decide)
  have hminus : σ.Keeps (· == '-') := keeps_of (by decide) (by decide)
  cases cs with
  | nil => exact ⟨rfl, rfl⟩
  | cons c cs =>
      by_cases hc : c = '+' ∨ c = '-'
      · have hspell : σ.spell c = [c] := by
          rcases hc with rfl | rfl
          · exact spell_of_keeps (by decide) hplus
          · exact spell_of_keeps (by decide) hminus
        simp [hspell, signLength, hc]
      · obtain ⟨d, ds, hd⟩ := σ.exists_spell c
        have hmem : d ∈ σ.spell c := by rw [hd]; exact List.mem_cons_self
        have hd' : ¬ (d = '+' ∨ d = '-') := by
          have h₁ := hplus c d hmem
          have h₂ := hminus c d hmem
          simp_all
        simp [hd, signLength, hc, hd']

theorem commutes_exponentPart : σ.Commutes exponentPart := by
  have hmark : σ.Keeps (fun c => decide (c = 'e' ∨ c = 'E')) := keeps_of (by decide) (by decide)
  intro cs
  cases cs with
  | nil => rfl
  | cons c cs =>
      obtain ⟨d, ds, hd⟩ := σ.exists_spell c
      have hkeeps : (d = 'e' ∨ d = 'E') ↔ (c = 'e' ∨ c = 'E') :=
        decide_eq_decide.1 (hmark c d (by rw [hd]; exact List.mem_cons_self))
      by_cases hc : c = 'e' ∨ c = 'E'
      · -- The mark is one character, so what follows it is the rest of the text.
        have hne : c ≠ '\n' := by
          rintro rfl
          exact absurd hc (by decide)
        obtain ⟨e, he, -⟩ := σ.other c hne
        obtain ⟨rfl, rfl⟩ : d = e ∧ ds = [] := by simpa [he] using hd.symm
        simp only [apply_cons, hd, List.cons_append, List.nil_append, exponentPart, (sign_apply cs).1,
          (sign_apply cs).2, head?_any_apply keeps_isDigit, hkeeps, takeWhile_apply keeps_isDigit,
          dropWhile_apply keeps_isDigit]
        split
        · simp [parts, hd]
        · simp [parts, hd]
      · have hd' : ¬ (d = 'e' ∨ d = 'E') := fun h => hc (hkeeps.1 h)
        simp [exponentPart, parts, hc, hd, hd']

theorem commutes_numberParts : σ.Commutes numberParts := by
  rw [numberParts_eq]
  have hwhole := (commutes_run keeps_isDigit).andThen (commutes_fractionPart (σ := σ))
  exact (hwhole.andThen commutes_exponentPart).andThen (commutes_run keeps_continuesNumber)

/-! ### Comments -/

theorem keeps_slash : σ.Keeps (· == '/') := keeps_of (by decide) (by decide)

theorem keeps_star : σ.Keeps (· == '*') := keeps_of (by decide) (by decide)

theorem spell_slash : σ.spell '/' = ['/'] := spell_of_keeps (by decide) keeps_slash

theorem spell_star : σ.spell '*' = ['*'] := spell_of_keeps (by decide) keeps_star

/-- A comment goes on over characters that are no part of a mark. -/
theorem commentBody_append_of_not_mark (depth : Nat) {ds : List Char}
    (h : ∀ d ∈ ds, d ≠ '/' ∧ d ≠ '*') (cs : List Char) :
    commentBody (depth + 1) (ds ++ cs) = (commentBody (depth + 1) cs).map (ahead ds) := by
  induction ds with
  | nil => rw [List.nil_append, show ahead [] = id from rfl, Option.map_id, id]
  | cons d ds ih =>
      obtain ⟨hd, hds⟩ := List.forall_mem_cons.1 h
      rw [List.cons_append, commentBody.eq_5 _ _ _ (fun _ hslash => absurd hslash hd.1)
        (fun _ hstar => absurd hstar hd.2), ih hds, Option.map_map]
      rfl

theorem map_ahead_parts (cs : List Char) (found : Option (List Char × List Char)) :
    (found.map (ahead cs)).map σ.parts = (found.map σ.parts).map (ahead (σ.apply cs)) := by
  cases found with
  | none => rfl
  | some p => simp [ahead, parts]

theorem commentBody_apply (depth : Nat) (cs : List Char) :
    commentBody depth (σ.apply cs) = (commentBody depth cs).map σ.parts := by
  fun_induction commentBody depth cs with
  | case1 cs =>
      rw [commentBody]
      rfl
  | case2 => rfl
  | case3 depth cs ih | case4 depth cs ih =>
      rw [map_ahead_parts, ← ih]
      simp [spell_slash, spell_star, commentBody]
  | case5 depth c cs hopen hclose ih =>
      rw [map_ahead_parts, ← ih, apply_cons, apply_cons, apply_nil, List.append_nil]
      by_cases hc : c = '/' ∨ c = '*'
      · -- Half a mark stays half a mark, because the character behind it does.
        rcases hc with rfl | rfl
        · rw [spell_slash, List.singleton_append]
          refine commentBody.eq_5 _ _ _ (fun ds _ hds => ?_) (fun ds h => absurd h (by decide))
          have hhead := (head?_apply_eq_iff (σ := σ) keeps_star cs).1 (by rw [hds]; rfl)
          obtain ⟨es, rfl⟩ := List.head?_eq_some_iff.1 hhead
          exact hopen es rfl rfl
        · rw [spell_star, List.singleton_append]
          refine commentBody.eq_5 _ _ _ (fun ds h => absurd h (by decide)) (fun ds _ hds => ?_)
          have hhead := (head?_apply_eq_iff (σ := σ) keeps_slash cs).1 (by rw [hds]; rfl)
          obtain ⟨es, rfl⟩ := List.head?_eq_some_iff.1 hhead
          exact hclose es rfl rfl
      · refine commentBody_append_of_not_mark depth (fun d hd => ?_) _
        have hslash := keeps_slash c d hd
        have hstar := keeps_star c d hd
        simp_all

/-! ### Strings -/

def quoted (σ : Respelling) (s : Quoted) : Quoted := ⟨σ.apply s.body, σ.apply s.rest, s.closed⟩

theorem quoted_ahead (cs : List Char) (s : Quoted) :
    σ.quoted (s.ahead cs) = (σ.quoted s).ahead (σ.apply cs) := by
  simp [quoted, Quoted.ahead]

/-- A string stops in front of a line break in both spellings. -/
theorem quotedBody_apply_of_endsLine {c : Char} (hc : endsLine c = true) (quote : Char)
    (cs : List Char) : quotedBody quote (σ.apply (c :: cs)) = ⟨[], σ.apply (c :: cs), false⟩ := by
  refine quotedBody_stopped fun d hd => ?_
  have hany := head?_any_apply (σ := σ) keeps_endsLine (c :: cs)
  rw [Option.mem_def.1 hd] at hany
  exact hany.trans hc

/-- A character inside a string is one character in both spellings. -/
theorem quotedBody_apply_of_other {quote c : Char} (hquote : σ.Keeps (· == quote))
    (hline : ¬ endsLine c = true) (hc : c ≠ quote) (cs : List Char) :
    quotedBody quote (σ.apply (c :: cs)) = (quotedBody quote (σ.apply cs)).ahead (σ.apply [c]) := by
  have hlf : c ≠ '\n' := by
    rintro rfl
    exact hline rfl
  obtain ⟨d, hd, -⟩ := σ.other c hlf
  have hmem : d ∈ σ.spell c := by rw [hd]; exact List.mem_singleton_self d
  have hdline : ¬ endsLine d = true := by rwa [keeps_endsLine c d hmem]
  have hdquote : d ≠ quote := by
    have hkeeps := hquote c d hmem
    simpa [hc] using hkeeps
  rw [apply_cons, apply_cons, hd, apply_nil, List.append_nil]
  exact quotedBody_cons_other hdline hdquote _

theorem quotedBody_apply {quote : Char} (hquote : σ.Keeps (· == quote))
    (hspell : σ.spell quote = [quote]) (cs : List Char) :
    quotedBody quote (σ.apply cs) = σ.quoted (quotedBody quote cs) := by
  fun_induction quotedBody quote cs with
  | case1 => rfl
  | case2 c hc | case5 c d cs hc => exact quotedBody_apply_of_endsLine hc quote _
  | case3 hline =>
      rw [apply_cons, hspell, apply_nil, List.append_nil, quotedBody_closing hline (by simp)]
      simp [quoted, hspell]
  | case4 c hline hc =>
      rw [quotedBody_apply_of_other hquote hline hc]
      simp [quoted, Quoted.ahead, quotedBody]
  | case6 cs hline ih =>
      rw [quoted_ahead, ← ih, apply_cons, apply_cons, apply_cons, apply_cons, apply_nil, hspell]
      exact quotedBody_doubled hline _
  | case7 d cs hd hline =>
      have hhead : (σ.apply (d :: cs)).head? ≠ some quote := by
        intro hhead
        exact hd (Option.some.inj ((head?_apply_eq_iff hquote (d :: cs)).1 hhead))
      rw [apply_cons, hspell]
      refine (quotedBody_closing hline hhead).trans ?_
      simp [quoted, hspell]
  | case8 c d cs hline hc ih =>
      rw [quotedBody_apply_of_other hquote hline hc, ih, quoted_ahead]

/-! ### Operators -/

/-- The characters of operators are spelled as themselves. -/
theorem keeps_of_mem_operators {spelling : List Char} {kind : Token.Kind}
    (h : (spelling, kind) ∈ operators) : ∀ m ∈ spelling, m ≠ '\n' ∧ σ.Keeps (· == m) := by
  have htable : operators.all (fun o => o.1.all fun m => m != '\n' &&
      ignoresCase (· == m) && ('\r' == m) == ('\n' == m)) = true := by
    decide
  intro m hm
  have hmark := List.all_eq_true.1 (List.all_eq_true.1 htable _ h) m hm
  simp only [Bool.and_eq_true, bne_iff_ne, beq_iff_eq] at hmark
  exact ⟨hmark.1.1, keeps_of hmark.1.2 hmark.2⟩

theorem apply_eq_self {cs : List Char} (h : ∀ m ∈ cs, m ≠ '\n' ∧ σ.Keeps (· == m)) :
    σ.apply cs = cs := by
  induction cs with
  | nil => rfl
  | cons c cs ih =>
      obtain ⟨hc, hcs⟩ := List.forall_mem_cons.1 h
      rw [apply_cons, spell_of_keeps hc.1 hc.2, ih hcs]
      rfl

/-- A text of marks begins a text in both spellings or in neither. -/
theorem isPrefix_apply_iff {marks : List Char} (h : ∀ m ∈ marks, m ≠ '\n' ∧ σ.Keeps (· == m))
    (cs : List Char) : marks <+: σ.apply cs ↔ marks <+: cs := by
  induction marks generalizing cs with
  | nil => simp
  | cons m marks ih =>
      obtain ⟨hm, hmarks⟩ := List.forall_mem_cons.1 h
      cases cs with
      | nil => simp
      | cons c cs =>
          by_cases hc : c = m
          · subst hc
            rw [apply_cons, spell_of_keeps hm.1 hm.2, List.singleton_append, List.cons_prefix_cons,
              List.cons_prefix_cons, ih hmarks]
          · have hhead : ¬ (σ.apply (c :: cs)).head? = some m := by
              rw [head?_apply_eq_iff hm.2]
              simpa using hc
            refine iff_of_false (fun hprefix => hhead ?_) (fun hprefix => ?_)
            · exact head?_of_isPrefix hprefix rfl
            · exact hc (List.cons_prefix_cons.1 hprefix).1.symm

theorem operator?_apply (cs : List Char) : operator? (σ.apply cs) = operator? cs := by
  have hsame : ∀ o ∈ operators, o.1.isPrefixOf (σ.apply cs) = o.1.isPrefixOf cs := by
    intro o ho
    rw [Bool.eq_iff_iff, List.isPrefixOf_iff_prefix, List.isPrefixOf_iff_prefix]
    exact isPrefix_apply_iff (keeps_of_mem_operators ho) cs
  exact List.find?_congr hsame

/-- On one line, only the case of letters may change. -/
theorem map_toLower_apply {cs : List Char} (h : OnLine cs) :
    (σ.apply cs).map Char.toLower = cs.map Char.toLower := by
  induction cs with
  | nil => rfl
  | cons c cs ih =>
      obtain ⟨hc, hcs⟩ := onLine_cons.1 h
      have hlf : c ≠ '\n' := by
        rintro rfl
        cases hc
      obtain ⟨d, hd, hlower⟩ := σ.other c hlf
      rw [apply_cons, hd, List.singleton_append, List.map_cons, List.map_cons, hlower, ih hcs]

end Respelling

/-! ### Lexemes -/

def respell (σ : Respelling) (x : Lexeme) : Lexeme :=
  { x with text := σ.apply x.text, rest := σ.apply x.rest }

section Scan

variable (σ : Respelling)

open Respelling

@[simp] theorem respell_kind (x : Lexeme) : (x.respell σ).kind = x.kind := rfl

@[simp] theorem respell_text (x : Lexeme) : (x.respell σ).text = σ.apply x.text := rfl

@[simp] theorem respell_rest (x : Lexeme) : (x.respell σ).rest = σ.apply x.rest := rfl

@[simp] theorem respell_fault (x : Lexeme) : (x.respell σ).fault = x.fault := rfl

theorem comment_respell (cs : List Char) : comment (σ.apply cs) = (comment cs).respell σ := by
  rw [comment, comment, commentBody_apply]
  cases commentBody 1 cs with
  | none => simp [respell, spell_slash, spell_star]
  | some p => simp [respell, parts, spell_slash, spell_star]

theorem quoted_respell {quote : Char} (hquote : σ.Keeps (· == quote)) (hne : quote ≠ '\n')
    (closed unclosed : Token.Kind) (cs : List Char) :
    quoted quote closed unclosed (σ.apply cs) = (quoted quote closed unclosed cs).respell σ := by
  have hspell := spell_of_keeps hne hquote
  have htext (body : List Char) : quote :: σ.apply body = σ.apply (quote :: body) := by
    rw [apply_cons, hspell]
    rfl
  rw [quoted, quoted, quotedBody_apply hquote hspell]
  show Lexeme.mk _ (quote :: σ.apply _) _ _ = _
  rw [htext]
  rfl

theorem number_respell (cs : List Char) : number (σ.apply cs) = (number cs).respell σ := by
  rw [number, number, commutes_numberParts cs]
  rfl

theorem classify_congr {s t : String} (h : asciiLower s = asciiLower t) :
    Vocabulary.classify s = Vocabulary.classify t := by
  rw [Vocabulary.classify, Vocabulary.classify, Vocabulary.isKeyword, Vocabulary.isFunction, h]
  rfl

theorem symbol_respell (cs : List Char) : symbol (σ.apply cs) = (symbol cs).respell σ := by
  have honLine : OnLine (cs.takeWhile continuesSymbol) :=
    onLine_takeWhile (fun _ => endsLine_of_continuesSymbol) _
  have hclassify : Vocabulary.classify (String.ofList (σ.apply (cs.takeWhile continuesSymbol)))
      = Vocabulary.classify (String.ofList (cs.takeWhile continuesSymbol)) := by
    apply classify_congr
    rw [asciiLower, asciiLower, String.toList_ofList, String.toList_ofList, map_toLower_apply honLine]
  simp only [symbol, takeWhile_apply keeps_continuesSymbol, dropWhile_apply keeps_continuesSymbol,
    hclassify, respell]

theorem punctuation_respell {c d : Char} (hspell : σ.spell c = [d]) (cs : List Char) :
    punctuation d (σ.apply cs) = (punctuation c cs).respell σ := by
  have htext : d :: σ.apply cs = σ.apply (c :: cs) := by
    rw [apply_cons, hspell]
    rfl
  rw [punctuation, punctuation, htext, operator?_apply]
  cases h : operator? (c :: cs) with
  | none => simp [respell, hspell]
  | some o =>
      obtain ⟨spelling, kind⟩ := o
      obtain ⟨rest, hrest⟩ := (operator?_eq_some h).2
      have hself := apply_eq_self (σ := σ) (keeps_of_mem_operators (List.mem_of_find?_eq_some h))
      simp only [respell, ← hrest, apply_append, hself, List.drop_left]

theorem startsNumber_respell {c d : Char} (hspell : σ.spell c = [d]) (cs : List Char) :
    startsNumber d (σ.apply cs) = startsNumber c cs := by
  have hmem : d ∈ σ.spell c := by rw [hspell]; exact List.mem_singleton_self d
  have hdot : σ.Keeps (· == '.') := keeps_of (by decide) (by decide)
  have hdot' : (d == '.') = (c == '.') := hdot c d hmem
  rw [startsNumber, startsNumber, head?_any_apply keeps_isDigit, keeps_isDigit c d hmem, hdot']

/-- **The lexeme of a respelled text is the respelled lexeme.** -/
theorem scan_respell {c d : Char} {ds : List Char} (hspell : σ.spell c = d :: ds) (cs : List Char) :
    scan d (ds ++ σ.apply cs) = (scan c cs).respell σ := by
  by_cases hblank : isBlank c = true
  · have hall : ∀ e ∈ d :: ds, isBlank e = true := by
      intro e he
      rw [keeps_isBlank c e (by rw [hspell]; exact he), hblank]
    obtain ⟨hd, hds⟩ := List.forall_mem_cons.1 hall
    simp only [scan, hblank, hd, if_true, List.takeWhile_append_of_pos hds,
      List.dropWhile_append_of_pos hds, takeWhile_apply keeps_isBlank, dropWhile_apply keeps_isBlank,
      respell, apply_cons, hspell, List.cons_append]
  -- Every other character is one character in both spellings, and it is in the same classes.
  have hlf : c ≠ '\n' := by
    rintro rfl
    exact hblank (by decide)
  obtain ⟨e, he, -⟩ := σ.other c hlf
  obtain ⟨rfl, rfl⟩ : d = e ∧ ds = [] := by simpa [he] using hspell.symm
  have hmem : d ∈ σ.spell c := by rw [hspell]; exact List.mem_singleton_self d
  have hiff {m : Char} (h : σ.Keeps (· == m)) : d = m ↔ c = m := by
    have hkeeps := h c d hmem
    rwa [Bool.eq_iff_iff, beq_iff_eq, beq_iff_eq] at hkeeps
  have hsingle : σ.Keeps (· == '\'') := keeps_of (by decide) (by decide)
  have hdouble : σ.Keeps (· == '"') := keeps_of (by decide) (by decide)
  have hdblank : ¬ isBlank d = true := by rwa [keeps_isBlank c d hmem]
  have hopen : d = '/' ∧ (σ.apply cs).head? = some '*' ↔ c = '/' ∧ cs.head? = some '*' :=
    and_congr (hiff keeps_slash) (head?_apply_eq_iff keeps_star cs)
  have hclose : d = '*' ∧ (σ.apply cs).head? = some '/' ↔ c = '*' ∧ cs.head? = some '/' :=
    and_congr (hiff keeps_star) (head?_apply_eq_iff keeps_slash cs)
  rw [List.nil_append, scan, if_neg hdblank]
  fun_cases scan c cs with
  | case1 h => exact absurd h hblank
  | case2 _ h =>
      obtain ⟨es, rfl⟩ := List.head?_eq_some_iff.1 h.2
      rw [if_pos (hopen.2 h), apply_cons, spell_star]
      exact comment_respell σ es
  | case3 _ h₁ h =>
      obtain ⟨es, rfl⟩ := List.head?_eq_some_iff.1 h.2
      rw [if_neg (mt hopen.1 h₁), if_pos (hclose.2 h)]
      simp [respell, spell_slash, spell_star]
  | case4 _ h₁ h₂ h =>
      rw [if_neg (mt hopen.1 h₁), if_neg (mt hclose.1 h₂), if_pos ((hiff hsingle).2 h), (hiff hsingle).2 h,
        h]
      exact quoted_respell σ hsingle (by decide) _ _ cs
  | case5 _ h₁ h₂ h₃ h =>
      rw [if_neg (mt hopen.1 h₁), if_neg (mt hclose.1 h₂), if_neg (mt (hiff hsingle).1 h₃),
        if_pos ((hiff hdouble).2 h), (hiff hdouble).2 h, h]
      exact quoted_respell σ hdouble (by decide) _ _ cs
  | case6 _ h₁ h₂ h₃ h₄ h =>
      rw [if_neg (mt hopen.1 h₁), if_neg (mt hclose.1 h₂), if_neg (mt (hiff hsingle).1 h₃),
        if_neg (mt (hiff hdouble).1 h₄), startsNumber_respell σ hspell, if_pos h, ← number_respell,
        apply_cons, hspell]
      rfl
  | case7 _ h₁ h₂ h₃ h₄ h₅ h =>
      rw [if_neg (mt hopen.1 h₁), if_neg (mt hclose.1 h₂), if_neg (mt (hiff hsingle).1 h₃),
        if_neg (mt (hiff hdouble).1 h₄), startsNumber_respell σ hspell, if_neg h₅,
        keeps_startsSymbol c d hmem, if_pos h, ← symbol_respell, apply_cons, hspell]
      rfl
  | case8 _ h₁ h₂ h₃ h₄ h₅ h₆ =>
      rw [if_neg (mt hopen.1 h₁), if_neg (mt hclose.1 h₂), if_neg (mt (hiff hsingle).1 h₃),
        if_neg (mt (hiff hdouble).1 h₄), startsNumber_respell σ hspell, if_neg h₅,
        keeps_startsSymbol c d hmem, if_neg h₆]
      exact punctuation_respell σ hspell cs

end Scan

end RexxService.Lexeme
