import Mathlib.Computability.Language
import RexxService.Proofs.Lexer.Munch

/-!
# Numbers

The numbers form a regular language: digits with an optional fraction, or a fraction that begins with its
dot; then an optional exponent; then symbol characters other than dots.  Reading goes through these parts in
turn and takes each as long as it can, without ever going back.  That this gives the longest number is not
true of parts in general, because a part that takes less may leave more to the next one.  It holds here for
one reason: whatever a part has taken beyond a shorter choice, the next part could not have begun with, or
can leave out.

* **`numbers`** — the language;
* **`TakesLongest`** — a reader takes the longest word of a language;
* **`Resumes`**, **`TakesLongest.andThen`** — two readers in turn take the longest word of two languages in
  turn, if the second language goes on with what is beyond the first;
* **`takesLongest_numberParts`** — so the parts of a number together are the longest ones;
* **`numbers_are_longest`** — the tokens of a text that begins with a number.
-/

namespace RexxService

open RexxService.Text
open scoped Computability

namespace Lexeme

/-! ### The language -/

def oneOf (p : Char → Bool) : Language Char := {w | ∃ c, p c = true ∧ w = [c]}

/-- The words of a language, and the empty word. -/
def optional (L : Language Char) : Language Char := 1 + L

def digits : Language Char := oneOf isDigit * (oneOf isDigit)∗

/-- A dot and any digits after it. -/
def fractions : Language Char := oneOf (· == '.') * (oneOf isDigit)∗

/-- Digits with an optional fraction, or a dot with digits after it. -/
def mantissas : Language Char := digits * optional fractions + oneOf (· == '.') * digits

/-- The mark of an exponent, an optional sign and digits. -/
def exponents : Language Char :=
  oneOf (fun c => c == 'e' || c == 'E') * optional (oneOf fun c => c == '+' || c == '-') * digits

/-- Symbol characters other than dots. -/
def tails : Language Char := (oneOf continuesNumber)∗

def numbers : Language Char := mantissas * optional exponents * tails

variable {p : Char → Bool} {L M : Language Char} {c : Char} {w cs : List Char}

theorem mem_optional : w ∈ optional L ↔ w = [] ∨ w ∈ L := Iff.rfl

theorem nil_mem_optional (L : Language Char) : [] ∈ optional L := Or.inl rfl

theorem mem_kstar_oneOf : w ∈ (oneOf p)∗ ↔ ∀ c ∈ w, p c = true := by
  rw [Language.mem_kstar]
  constructor
  · rintro ⟨words, rfl, hwords⟩ c hc
    obtain ⟨word, hword, hc⟩ := List.mem_flatten.1 hc
    obtain ⟨d, hd, rfl⟩ := hwords word hword
    rw [List.mem_singleton.1 hc]
    exact hd
  · intro h
    refine ⟨w.map fun c => [c], by simp [← List.flatMap_def], fun word hword => ?_⟩
    obtain ⟨c, hc, rfl⟩ := List.mem_map.1 hword
    exact ⟨c, h c hc, rfl⟩

theorem mem_oneOf_mul : w ∈ oneOf p * L ↔ ∃ c back, p c = true ∧ back ∈ L ∧ w = c :: back := by
  rw [Language.mem_mul]
  constructor
  · rintro ⟨_, ⟨c, hc, rfl⟩, back, hback, rfl⟩
    exact ⟨c, back, hc, hback, rfl⟩
  · rintro ⟨c, back, hc, hback, rfl⟩
    exact ⟨[c], ⟨c, hc, rfl⟩, back, hback, rfl⟩

theorem mem_digits : w ∈ digits ↔ ∃ c back, isDigit c = true ∧ (∀ d ∈ back, isDigit d = true) ∧
    w = c :: back := by
  simp only [digits, mem_oneOf_mul, mem_kstar_oneOf]

theorem mem_fractions : w ∈ fractions ↔ ∃ back, (∀ d ∈ back, isDigit d = true) ∧ w = '.' :: back := by
  simp only [fractions, mem_oneOf_mul, mem_kstar_oneOf, beq_iff_eq]
  constructor
  · rintro ⟨c, back, rfl, hback, rfl⟩
    exact ⟨back, hback, rfl⟩
  · rintro ⟨back, hback, rfl⟩
    exact ⟨'.', back, rfl, hback, rfl⟩

/-! ### Longest words -/

/-- A reader takes a word of the language, and every word of the language at the beginning of the text is a
beginning of it. -/
structure TakesLongest (read : List Char → List Char × List Char) (L : Language Char) : Prop where
  mem : ∀ cs, (read cs).1 ∈ L
  longest : ∀ cs w, w ∈ L → w <+: cs → w <+: (read cs).1

/-- Where a word of the first language can be made longer, the words of the second language that go over the
difference are still words of the second language without it. -/
def Resumes (L M : Language Char) : Prop :=
  ∀ front more back, front ++ more ∈ L → more ++ back ∈ M → back ∈ M

/-- Two readers in turn take the longest word of two languages in turn. -/
theorem TakesLongest.andThen {first second : List Char → List Char × List Char}
    (hfirst : TakesLongest first L) (hsecond : TakesLongest second M)
    (happend : ∀ cs, (first cs).1 ++ (first cs).2 = cs) (hresumes : Resumes L M) :
    TakesLongest (andThen first second) (L * M) where
  mem cs := Language.mem_mul.2 ⟨_, hfirst.mem cs, _, hsecond.mem _, rfl⟩
  longest := by
    intro cs w hw hbegin
    obtain ⟨front, hfront, back, hback, rfl⟩ := Language.mem_mul.1 hw
    show front ++ back <+: (first cs).1 ++ (second (first cs).2).1
    have hshort : front <+: (first cs).1 :=
      hfirst.longest cs front hfront ((List.prefix_append front back).trans hbegin)
    have hmem := hfirst.mem cs
    obtain ⟨more, hmore⟩ := hshort
    -- Both words begin with `front`; what is left to compare stands behind it.
    rw [← happend cs, ← hmore, List.append_assoc, List.prefix_append_right_inj] at hbegin
    rw [← hmore] at hmem ⊢
    rw [List.append_assoc, List.prefix_append_right_inj]
    -- The second word ends inside what the first reader has taken, or goes on behind it.
    rcases List.prefix_or_prefix_of_prefix hbegin (List.prefix_append more _) with hinside | ⟨rest, rfl⟩
    · exact hinside.trans (List.prefix_append _ _)
    · rw [List.prefix_append_right_inj] at hbegin ⊢
      exact hsecond.longest _ rest (hresumes front more rest hmem hback) hbegin

/-- A second language goes on behind a first one if none of its words begins with a character that the words
of the first one have. -/
theorem resumes_of_apart (h : ∀ w ∈ L, ∀ c ∈ w, ∀ v ∈ M, v.head? ≠ some c) : Resumes L M := by
  intro front more back hlong hback
  cases more with
  | nil => exact hback
  | cons c more => exact absurd rfl (h _ hlong c (by simp) _ hback)

theorem prefix_takeWhile (hw : ∀ c ∈ w, p c = true) (hbegin : w <+: cs) : w <+: cs.takeWhile p := by
  obtain ⟨rest, rfl⟩ := hbegin
  rw [List.takeWhile_append_of_pos hw]
  exact List.prefix_append _ _

/-! ### The parts of a number -/

theorem takesLongest_run (p : Char → Bool) : TakesLongest (run p) (oneOf p)∗ where
  mem _ := mem_kstar_oneOf.2 fun _ hc => List.mem_takeWhile_imp hc
  longest _ _ hw hbegin := prefix_takeWhile (mem_kstar_oneOf.1 hw) hbegin

theorem takesLongest_fractionPart : TakesLongest fractionPart (optional fractions) where
  mem := by
    intro cs
    fun_cases fractionPart cs with
    | case1 | case3 => exact nil_mem_optional _
    | case2 cs => exact Or.inr (mem_fractions.2 ⟨_, fun _ hd => List.mem_takeWhile_imp hd, rfl⟩)
  longest := by
    intro cs w hw hbegin
    rcases mem_optional.1 hw with rfl | hw
    · exact List.nil_prefix
    · obtain ⟨back, hback, rfl⟩ := mem_fractions.1 hw
      obtain ⟨rest, rfl⟩ := hbegin
      have hdigits := prefix_takeWhile hback (List.prefix_append back rest)
      simpa [fractionPart] using hdigits

/-- What may stand between the mark of an exponent and its digits. -/
theorem sign_mem (cs : List Char) :
    cs.take (signLength cs) ∈ optional (oneOf fun c => c == '+' || c == '-') := by
  cases cs with
  | nil => exact nil_mem_optional _
  | cons c cs =>
      rw [signLength]
      split
      · rename_i hc
        exact Or.inr ⟨c, by simpa using hc, rfl⟩
      · exact nil_mem_optional _

/-- A sign in front of digits is told from them. -/
theorem signLength_append (hw : w ∈ optional (oneOf fun c => c == '+' || c == '-'))
    (hc : isDigit c = true) (cs : List Char) : signLength (w ++ c :: cs) = w.length := by
  rcases mem_optional.1 hw with rfl | ⟨s, hs, rfl⟩
  · have hnot : ¬ (c = '+' ∨ c = '-') := by
      rintro (rfl | rfl)
      · exact absurd hc (by decide)
      · exact absurd hc (by decide)
    simp [signLength, hnot]
  · have hsign : s = '+' ∨ s = '-' := by simpa using hs
    simp [signLength, hsign]

theorem takesLongest_exponentPart : TakesLongest exponentPart (optional exponents) where
  mem := by
    intro cs
    fun_cases exponentPart cs with
    | case1 | case3 => exact nil_mem_optional _
    | case2 c cs sign digits h =>
        obtain ⟨d, hd, hdigit⟩ := (Option.any_eq_true _ _).1 h.2
        obtain ⟨ds, hds⟩ := List.head?_eq_some_iff.1 hd
        refine Or.inr (Language.mem_mul.2 ⟨c :: sign, mem_oneOf_mul.2 ⟨c, sign, ?_, sign_mem cs, rfl⟩,
          digits.takeWhile isDigit, mem_digits.2 ⟨d, ds.takeWhile isDigit, hdigit, ?_, ?_⟩, rfl⟩)
        · simpa using h.1
        · exact fun _ he => List.mem_takeWhile_imp he
        · rw [hds, List.takeWhile_cons_of_pos hdigit]
  longest := by
    intro cs w hw hbegin
    rcases mem_optional.1 hw with rfl | hw
    · exact List.nil_prefix
    · obtain ⟨marked, hmarked, number, hnumber, rfl⟩ := Language.mem_mul.1 hw
      obtain ⟨mark, sign, hmark, hsign, rfl⟩ := mem_oneOf_mul.1 hmarked
      obtain ⟨d, ds, hd, hds, rfl⟩ := mem_digits.1 hnumber
      obtain ⟨rest, rfl⟩ := hbegin
      have hlength := signLength_append hsign hd (ds ++ rest)
      have hmark : mark = 'e' ∨ mark = 'E' := by simpa using hmark
      have hdigits := prefix_takeWhile hds (List.prefix_append ds rest)
      simpa [exponentPart, hlength, hmark, hd] using hdigits

/-! ### The whole number -/

/-- What the reader of a number takes from any text: as numbers are, but with nothing in front of the
exponent if need be. -/
def looseNumbers : Language Char :=
  (oneOf isDigit)∗ * optional fractions * optional exponents * tails

/-- No character of a mantissa begins an exponent. -/
theorem resumes_exponents : Resumes ((oneOf isDigit)∗ * optional fractions) (optional exponents) := by
  refine resumes_of_apart fun w hw c hc v hv hhead => ?_
  have hclass : isDigit c = true ∨ c = '.' := by
    obtain ⟨front, hfront, back, hback, rfl⟩ := Language.mem_mul.1 hw
    rcases List.mem_append.1 hc with hc | hc
    · exact Or.inl (mem_kstar_oneOf.1 hfront c hc)
    · rcases mem_optional.1 hback with rfl | hback
      · cases hc
      · obtain ⟨back, hdigits, rfl⟩ := mem_fractions.1 hback
        rcases List.mem_cons.1 hc with rfl | hc
        · exact Or.inr rfl
        · exact Or.inl (hdigits c hc)
  have hmark : c = 'e' ∨ c = 'E' := by
    rcases mem_optional.1 hv with rfl | hv
    · cases hhead
    · obtain ⟨marked, hmarked, number, -, rfl⟩ := Language.mem_mul.1 hv
      obtain ⟨mark, sign, hmark, -, rfl⟩ := mem_oneOf_mul.1 hmarked
      obtain rfl : mark = c := Option.some.inj hhead
      simpa using hmark
  rcases hmark with rfl | rfl
  · exact absurd hclass (by decide)
  · exact absurd hclass (by decide)

/-- No digit begins a fraction. -/
theorem resumes_fractions : Resumes (oneOf isDigit)∗ (optional fractions) := by
  refine resumes_of_apart fun w hw c hc v hv hhead => ?_
  have hdigit := mem_kstar_oneOf.1 hw c hc
  rcases mem_optional.1 hv with rfl | hv
  · cases hhead
  · obtain ⟨back, -, rfl⟩ := mem_fractions.1 hv
    obtain rfl : '.' = c := Option.some.inj hhead
    exact absurd hdigit (by decide)

/-- A tail is a tail without its beginning. -/
theorem resumes_tails (L : Language Char) : Resumes L tails := by
  intro front more back _ hback
  refine mem_kstar_oneOf.2 fun c hc => ?_
  exact mem_kstar_oneOf.1 hback c (List.mem_append_right more hc)

theorem andThen_append {first second : List Char → List Char × List Char}
    (hfirst : ∀ cs, (first cs).1 ++ (first cs).2 = cs)
    (hsecond : ∀ cs, (second cs).1 ++ (second cs).2 = cs) (cs : List Char) :
    (andThen first second cs).1 ++ (andThen first second cs).2 = cs := by
  rw [andThen, List.append_assoc, hsecond, hfirst]

/-- The parts of a number, each as long as it can be, are together as long as they can be. -/
theorem takesLongest_numberParts : TakesLongest numberParts looseNumbers := by
  rw [numberParts_eq]
  have hwhole := (takesLongest_run isDigit).andThen takesLongest_fractionPart (run_append isDigit)
    resumes_fractions
  have hwhole_append := andThen_append (run_append isDigit) fractionPart_append
  have hexponent := hwhole.andThen takesLongest_exponentPart hwhole_append resumes_exponents
  have hexponent_append := andThen_append hwhole_append exponentPart_append
  exact hexponent.andThen (takesLongest_run continuesNumber) hexponent_append (resumes_tails _)

/-- A mantissa is made up of digits and a fraction, of which one may be missing. -/
theorem mem_of_mem_mantissas (hw : w ∈ mantissas) : w ∈ (oneOf isDigit)∗ * optional fractions := by
  rcases hw with hw | hw
  · obtain ⟨front, hfront, back, hback, rfl⟩ := Language.mem_mul.1 hw
    obtain ⟨c, ds, hc, hds, rfl⟩ := mem_digits.1 hfront
    refine Language.mem_mul.2 ⟨_, mem_kstar_oneOf.2 ?_, back, hback, rfl⟩
    exact List.forall_mem_cons.2 ⟨hc, hds⟩
  · obtain ⟨c, back, hc, hback, rfl⟩ := mem_oneOf_mul.1 hw
    obtain ⟨d, ds, hd, hds, rfl⟩ := mem_digits.1 hback
    obtain rfl : c = '.' := by simpa using hc
    refine Language.mem_mul.2 ⟨[], Language.nil_mem_kstar _, _, Or.inr (mem_fractions.2 ?_), rfl⟩
    exact ⟨_, List.forall_mem_cons.2 ⟨hd, hds⟩, rfl⟩

/-- The reader may take any number. -/
theorem mem_looseNumbers_of_mem_numbers (hw : w ∈ numbers) : w ∈ looseNumbers := by
  obtain ⟨front, hfront, tail, htail, rfl⟩ := Language.mem_mul.1 hw
  obtain ⟨mantissa, hmantissa, exponent, hexponent, rfl⟩ := Language.mem_mul.1 hfront
  exact Language.mem_mul.2 ⟨_, Language.mem_mul.2 ⟨_, mem_of_mem_mantissas hmantissa, _, hexponent, rfl⟩,
    _, htail, rfl⟩

/-- A text begins with a number: with a digit, or with a dot and a digit. -/
def BeginsWithNumber (cs : List Char) : Prop :=
  ∃ d rest, isDigit d = true ∧ (cs = d :: rest ∨ cs = '.' :: d :: rest)

/-- The digits and the fraction of a text that begins with a number are not missing. -/
theorem mantissa_mem (h : BeginsWithNumber cs) :
    (run isDigit cs).1 ++ (fractionPart (run isDigit cs).2).1 ∈ mantissas := by
  obtain ⟨d, rest, hd, rfl | rfl⟩ := h
  · refine Or.inl (Language.mem_mul.2 ⟨_, mem_digits.2 ⟨d, rest.takeWhile isDigit, hd, ?_, ?_⟩, _,
      takesLongest_fractionPart.mem _, rfl⟩)
    · exact fun _ he => List.mem_takeWhile_imp he
    · exact List.takeWhile_cons_of_pos hd
  · have hdot : ¬ isDigit '.' = true := by decide
    refine Or.inr (mem_oneOf_mul.2 ⟨'.', d :: rest.takeWhile isDigit, rfl,
      mem_digits.2 ⟨d, rest.takeWhile isDigit, hd, ?_, rfl⟩, ?_⟩)
    · exact fun _ he => List.mem_takeWhile_imp he
    · simp [run, fractionPart, hdot, hd]

/-- What is read from a text that begins with a number is a number. -/
theorem numberParts_mem (h : BeginsWithNumber cs) : (numberParts cs).1 ∈ numbers := by
  refine Language.mem_mul.2 ⟨_, Language.mem_mul.2 ⟨_, mantissa_mem h, _, ?_, rfl⟩, _, ?_, rfl⟩
  · exact takesLongest_exponentPart.mem _
  · exact (takesLongest_run continuesNumber).mem _

theorem isBlank_of_isDigit (h : isDigit c = true) : isBlank c = false := by
  have hrange : 48 ≤ c.toNat ∧ c.toNat ≤ 57 := by
    simpa [isDigit, Char.le_def, UInt32.le_iff_toNat_le] using h
  simp only [isBlank, blankRanges, covers]
  grind

/-- What begins with a number is read as one. -/
theorem scan_of_number (h : BeginsWithNumber (c :: cs)) : scan c cs = number (c :: cs) := by
  obtain ⟨d, rest, hd, hcs | hcs⟩ := h
  · obtain ⟨rfl, rfl⟩ := List.cons.inj hcs
    have hne {x : Char} (hx : isDigit x = false) : c ≠ x := by
      rintro rfl
      rw [hx] at hd
      cases hd
    rw [scan, if_neg (by simp [isBlank_of_isDigit hd]), if_neg fun h => hne (by decide) h.1,
      if_neg fun h => hne (by decide) h.1, if_neg (hne (by decide)), if_neg (hne (by decide)), if_pos]
    rw [startsNumber, hd, Bool.true_or]
  · obtain ⟨rfl, rfl⟩ := List.cons.inj hcs
    rw [scan, if_neg (by decide), if_neg (by simp), if_neg (by simp), if_neg (by decide),
      if_neg (by decide), if_pos]
    simp [startsNumber, hd]

end Lexeme

open Lexeme

/-- **Numbers are the longest match of their grammar.**  The first token of a text that begins with a digit,
or with a dot and a digit, is a number, and its text is the longest beginning of the text that is one. -/
theorem numbers_are_longest (text : String) (h : BeginsWithNumber text.toList) :
    ∃ t more, (tokenize text).1 = t :: more ∧ t.kind = .number ∧ t.text.toList ∈ numbers ∧
      t.text.toList <+: text.toList ∧
      ∀ w ∈ numbers, w <+: text.toList → w.length ≤ t.text.toList.length := by
  obtain ⟨c, cs, htext⟩ : ∃ c cs, text.toList = c :: cs := by
    obtain ⟨d, rest, -, hcs | hcs⟩ := h
    · exact ⟨_, _, hcs⟩
    · exact ⟨_, _, hcs⟩
  rw [htext] at h ⊢
  obtain ⟨t, more, htokens, hkind, hspelling, -⟩ := exists_first_token htext
  rw [scan_of_number h] at hkind hspelling
  refine ⟨t, more, htokens, hkind, ?_, ?_, fun w hw hbegin => ?_⟩
  · rw [hspelling]
    exact numberParts_mem h
  · rw [hspelling]
    exact ⟨_, numberParts_append (c :: cs)⟩
  · rw [hspelling]
    exact (takesLongest_numberParts.longest _ w (mem_looseNumbers_of_mem_numbers hw) hbegin).length_le

/-- Behind a first exponent, the `e` of what looks like a second one belongs to the number, and its sign does
not. -/
theorem numbers_are_longest_second_exponent :
    BeginsWithNumber "1e5e+3".toList ∧
      (tokenize "1e5e+3").1.head? = some ⟨.number, "1e5e", 0, 0, 0, 4⟩ ∧ "1e5e".toList ∈ numbers ∧
      ∀ w ∈ numbers, w <+: "1e5e+3".toList → w.length ≤ 4 := by
  have hbegins : BeginsWithNumber "1e5e+3".toList := ⟨'1', "e5e+3".toList, by decide, Or.inl rfl⟩
  have hfirst : (tokenize "1e5e+3").1.head? = some ⟨.number, "1e5e", 0, 0, 0, 4⟩ := by decide +kernel
  obtain ⟨t, more, htokens, -, hmem, -, hlongest⟩ := numbers_are_longest "1e5e+3" hbegins
  obtain rfl : t = ⟨.number, "1e5e", 0, 0, 0, 4⟩ := by
    rw [htokens] at hfirst
    exact Option.some.inj hfirst
  exact ⟨hbegins, hfirst, hmem, hlongest⟩

end RexxService
