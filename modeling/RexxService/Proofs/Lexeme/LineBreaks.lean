import Mathlib.Data.List.TakeWhile
import RexxService.Lexeme.Basic

/-!
# Line breaks and lexemes

A line break is a carriage return, a line feed, or a carriage return directly followed by a line feed.

* **`scan_text_onLine`** — only blanks and comments contain a line break;
* **`scan_not_splitsBreak`** — no lexeme ends between the two characters of one break.  Blanks take
  both of them, a closed comment ends in `/`, an unclosed one ends with the text, and nothing else
  contains either.
-/

namespace RexxService.Lexeme

open RexxService.Text

/-- No character of a text is part of a line break. -/
def OnLine (cs : List Char) : Prop := ∀ c ∈ cs, endsLine c = false

/-- The boundary between two texts falls between the two characters of one line break. -/
def SplitsBreak (front back : List Char) : Prop :=
  front.getLast? = some '\r' ∧ back.head? = some '\n'

theorem endsLine_iff {c : Char} : endsLine c = true ↔ c = '\r' ∨ c = '\n' := by
  simp [endsLine]

theorem isBlank_of_endsLine {c : Char} (h : endsLine c = true) : isBlank c = true := by
  rcases endsLine_iff.1 h with rfl | rfl
  · decide
  · decide

theorem endsLine_of_continuesSymbol {c : Char} (h : continuesSymbol c = true) :
    endsLine c = false := by
  by_contra hc
  rcases endsLine_iff.1 (by simpa using hc) with rfl | rfl
  · exact absurd h (by decide)
  · exact absurd h (by decide)

theorem endsLine_of_isDigit {c : Char} (h : isDigit c = true) : endsLine c = false := by
  by_contra hc
  rcases endsLine_iff.1 (by simpa using hc) with rfl | rfl
  · exact absurd h (by decide)
  · exact absurd h (by decide)

/-! ### Texts on one line -/

theorem onLine_nil : OnLine [] := fun _ hc => nomatch hc

theorem onLine_cons {c : Char} {cs : List Char} :
    OnLine (c :: cs) ↔ endsLine c = false ∧ OnLine cs := List.forall_mem_cons

theorem onLine_append {cs ds : List Char} : OnLine (cs ++ ds) ↔ OnLine cs ∧ OnLine ds :=
  List.forall_mem_append

theorem onLine_takeWhile {p : Char → Bool} (hp : ∀ c, p c = true → endsLine c = false)
    (cs : List Char) : OnLine (cs.takeWhile p) :=
  fun c hc => hp c (List.mem_takeWhile_imp hc)

/-- A text on one line does not end in half a break. -/
theorem not_splitsBreak_of_onLine {cs : List Char} (h : OnLine cs) (back : List Char) :
    ¬ SplitsBreak cs back := by
  rintro ⟨hlast, -⟩
  have hmem := List.mem_of_getLast? hlast
  exact absurd (h _ hmem) (by decide)

/-- A string never contains the line break that ends it. -/
theorem quotedBody_onLine (quote : Char) (cs : List Char) : OnLine (quotedBody quote cs).body := by
  fun_induction quotedBody quote cs with
  | case1 | case2 | case5 => exact onLine_nil
  | case3 hq => exact onLine_cons.2 ⟨by simpa using hq, onLine_nil⟩
  | case4 c hc => exact onLine_cons.2 ⟨by simpa using hc, onLine_nil⟩
  | case6 cs hq ih =>
      have hquote : endsLine quote = false := by simpa using hq
      exact onLine_cons.2 ⟨hquote, onLine_cons.2 ⟨hquote, ih⟩⟩
  | case7 d cs _ hq => exact onLine_cons.2 ⟨by simpa using hq, onLine_nil⟩
  | case8 c d cs hc hne ih => exact onLine_cons.2 ⟨by simpa using hc, ih⟩

theorem exponentPart_onLine (cs : List Char) : OnLine (exponentPart cs).1 := by
  fun_cases exponentPart cs with
  | case1 => exact onLine_nil
  | case2 c cs sign digits h =>
      have hmark : endsLine c = false := by
        rcases h.1 with rfl | rfl
        · decide
        · decide
      have hsign : OnLine (cs.take (signLength cs)) := by
        cases cs with
        | nil => exact onLine_nil
        | cons d ds =>
            by_cases hd : d = '+' ∨ d = '-'
            · rw [signLength, if_pos hd, List.take_succ_cons, List.take_zero]
              refine onLine_cons.2 ⟨?_, onLine_nil⟩
              rcases hd with rfl | rfl
              · decide
              · decide
            · rw [signLength, if_neg hd]
              exact onLine_nil
      exact onLine_cons.2 ⟨hmark, onLine_append.2
        ⟨hsign, onLine_takeWhile (fun _ => endsLine_of_isDigit) _⟩⟩
  | case3 => exact onLine_nil

theorem fractionPart_onLine (cs : List Char) : OnLine (fractionPart cs).1 := by
  fun_cases fractionPart cs with
  | case1 | case3 => exact onLine_nil
  | case2 cs =>
      exact onLine_cons.2 ⟨by decide, onLine_takeWhile (fun _ => endsLine_of_isDigit) _⟩

theorem numberParts_onLine (cs : List Char) : OnLine (numberParts cs).1 := by
  refine onLine_append.2 ⟨onLine_append.2 ⟨onLine_append.2 ⟨?_, ?_⟩, ?_⟩, ?_⟩
  · exact onLine_takeWhile (fun _ => endsLine_of_isDigit) _
  · exact fractionPart_onLine _
  · exact exponentPart_onLine _
  · refine onLine_takeWhile (fun c hc => endsLine_of_continuesSymbol ?_) _
    simp only [continuesNumber, Bool.and_eq_true] at hc
    exact hc.2

theorem punctuation_onLine {c : Char} (hc : endsLine c = false) (cs : List Char) :
    OnLine (punctuation c cs).text := by
  have htable : operators.all (fun o => o.1.all fun d => !endsLine d) = true := by decide
  fun_cases punctuation c cs with
  | case1 spelling kind h =>
      have hspelling := List.all_eq_true.1 htable _ (List.mem_of_find?_eq_some h)
      intro d hd
      simpa using List.all_eq_true.1 hspelling d hd
  | case2 => exact onLine_cons.2 ⟨hc, onLine_nil⟩

/-- Only blanks and comments contain a line break. -/
theorem scan_text_onLine {c : Char} {cs : List Char} (hblank : ¬ isBlank c = true)
    (hcomment : ¬ (c = '/' ∧ cs.head? = some '*')) : OnLine (scan c cs).text := by
  fun_cases scan c cs with
  | case1 h => exact absurd h hblank
  | case2 _ h => exact absurd h hcomment
  | case3 => exact onLine_cons.2 ⟨by decide, onLine_cons.2 ⟨by decide, onLine_nil⟩⟩
  | case4 _ _ _ h | case5 _ _ _ _ h =>
      refine onLine_cons.2 ⟨?_, quotedBody_onLine c cs⟩
      rw [h]
      decide
  | case6 => exact numberParts_onLine _
  | case7 => exact onLine_takeWhile (fun _ => endsLine_of_continuesSymbol) _
  | case8 =>
      refine punctuation_onLine ?_ cs
      by_contra hc
      exact hblank (isBlank_of_endsLine (by simpa using hc))

/-! ### No lexeme ends inside a break -/

/-- What closes a comment ends in the second character of the closing mark. -/
theorem commentBody_getLast {depth : Nat} {cs body rest : List Char}
    (h : commentBody depth cs = some (body, rest)) (hdepth : 0 < depth) :
    body.getLast? = some '/' := by
  fun_induction commentBody depth cs generalizing body with
  | case1 => omega
  | case2 => cases h
  | case3 depth cs ih | case5 depth c cs _ _ ih =>
      obtain ⟨⟨b, r⟩, hb, he⟩ := Option.map_eq_some_iff.1 h
      cases he
      have hlast := ih hb (by omega)
      simp [List.getLast?_cons, hlast]
  | case4 depth cs ih =>
      obtain ⟨⟨b, r⟩, hb, he⟩ := Option.map_eq_some_iff.1 h
      cases he
      cases depth with
      | zero =>
          rw [commentBody] at hb
          cases hb
          rfl
      | succ depth =>
          have hlast := ih hb (by omega)
          simp [List.getLast?_cons, hlast]

theorem comment_not_splitsBreak (cs : List Char) :
    ¬ SplitsBreak (comment cs).text (comment cs).rest := by
  rintro ⟨hlast, hhead⟩
  fun_cases comment cs with
  | case1 body rest h =>
      have hbody := commentBody_getLast h (by omega)
      rw [comment, h] at hlast
      simp [List.getLast?_cons, hbody] at hlast
  | case2 h =>
      rw [comment, h] at hhead
      cases hhead

/-- No lexeme ends between the two characters of one line break. -/
theorem scan_not_splitsBreak (c : Char) (cs : List Char) :
    ¬ SplitsBreak (scan c cs).text (scan c cs).rest := by
  by_cases hblank : isBlank c = true
  · -- The rest after blanks does not begin with one.
    rintro ⟨-, hhead⟩
    rw [scan, if_pos hblank] at hhead
    have hnot := List.head?_dropWhile_not isBlank cs
    rw [hhead] at hnot
    exact absurd hnot (by decide)
  · by_cases hcomment : c = '/' ∧ cs.head? = some '*'
    · rw [scan, if_neg hblank, if_pos hcomment]
      exact comment_not_splitsBreak _
    · exact not_splitsBreak_of_onLine (scan_text_onLine hblank hcomment) _

end RexxService.Lexeme
