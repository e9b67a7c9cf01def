import RexxService.Text.Lowercase

/-!
# Laws of lowercase forms

What the case of the letters `A` to `Z` has no part in, and when the lowercase form of a text begins that of a longer
one.
-/

/-!
## The case of letters

`asciiLower` changes the letters `A` to `Z` and nothing else.  What does not tell such a letter from its
small form does not tell any text from its `asciiLower` form.

* **`ignoresCase`**, **`apply_toLower`** — a function of characters that agrees on the two forms of the
  letters `A` to `Z` agrees on every character and its small form;
* **`lowercase_eq_of_asciiLower_eq`** — the full lowercase form depends on the `asciiLower` form only.
  This holds for a final sigma as well, since the two forms of a letter are both cased.
-/

namespace RexxService.Text

/-- The letters `A` to `Z`. -/
def capitals : List Char := (List.range 26).map fun i => Char.ofNat (65 + i)

/-- Every other character is its own small form. -/
theorem toLower_of_not_mem_capitals {c : Char} (h : c ∉ capitals) : c.toLower = c := by
  refine dif_neg fun hc => h ?_
  have hfrom : 65 ≤ c.toNat := hc.1
  have hto : c.toNat ≤ 90 := hc.2
  refine List.mem_map.2 ⟨c.toNat - 65, List.mem_range.2 (by omega), ?_⟩
  rw [Nat.add_sub_cancel' hfrom, Char.ofNat_toNat]

/-- Whether a function of characters agrees on both forms of every letter. -/
def ignoresCase {α : Type} [DecidableEq α] (f : Char → α) : Bool :=
  capitals.all fun c => f c.toLower == f c

/-- What agrees on both forms of every letter does not depend on the case. -/
theorem apply_toLower {α : Type} [DecidableEq α] (f : Char → α) (h : ignoresCase f = true) (c : Char) :
    f c.toLower = f c := by
  by_cases hc : c ∈ capitals
  · exact eq_of_beq (List.all_eq_true.1 h c hc)
  · rw [toLower_of_not_mem_capitals hc]

theorem toLower_toLower (c : Char) : c.toLower.toLower = c.toLower :=
  apply_toLower Char.toLower (by decide) c

theorem isCased_toLower (c : Char) : isCased c.toLower = isCased c :=
  apply_toLower isCased (by decide) c

theorem isCaseIgnorable_toLower (c : Char) : isCaseIgnorable c.toLower = isCaseIgnorable c :=
  apply_toLower isCaseIgnorable (by decide) c

theorem lowerChar_toLower (c : Char) : lowerChar c.toLower = lowerChar c :=
  apply_toLower lowerChar (by decide) c

theorem toLower_eq_sigma_iff (c : Char) : c.toLower = 'Σ' ↔ c = 'Σ' := by
  have h := apply_toLower (fun c => decide (c = 'Σ')) (by decide) c
  exact decide_eq_decide.1 h

theorem startsCased_toLower (cs : List Char) : startsCased (cs.map Char.toLower) = startsCased cs := by
  induction cs with
  | nil => rfl
  | cons c cs ih =>
      simp only [List.map_cons, startsCased, isCaseIgnorable_toLower, isCased_toLower, ih]

/-- The full lowercase form does not depend on the case of the letters `A` to `Z`. -/
theorem lowerFrom_toLower (afterCased : Bool) (cs : List Char) :
    lowerFrom afterCased (cs.map Char.toLower) = lowerFrom afterCased cs := by
  induction cs generalizing afterCased with
  | nil => rfl
  | cons c cs ih =>
      simp only [List.map_cons, lowerFrom, ih, startsCased_toLower, lowerChar_toLower,
        isCaseIgnorable_toLower, isCased_toLower, toLower_eq_sigma_iff]

/-- Texts that differ in the case of the letters `A` to `Z` only have one lowercase form. -/
theorem lowercase_eq_of_asciiLower_eq {s t : String} (h : asciiLower s = asciiLower t) :
    lowercase s = lowercase t := by
  have hmap : s.toList.map Char.toLower = t.toList.map Char.toLower := String.ofList_injective h
  rw [lowercase, lowercase, ← lowerFrom_toLower, hmap, lowerFrom_toLower]

/-!
## Capital sigmas at the end of a word

The lowercase form of a text begins, as a rule, with the lowercase form of any beginning of the text.
There is one exception.  A capital sigma may end a word in the beginning but not in the text, and then
its lowercase forms in the two differ.

* **`endsInSigma`** — a text that ends a word in a capital sigma;
* **`lowerAt`** — the lowercase form of a character between others, with **`lowerAt_append`** for what
  more characters behind it change;
* **`isPrefix_lowerFrom_iff`** — the exception, and that there is no other.
-/

/-- Whether a text ends a word in a capital sigma: the nearest character before the sigma that is not
case-ignorable is cased, and no character after it is other than case-ignorable.  The characters before
the text are given with the nearest one first. -/
def endsInSigma (before : List Char) : List Char → Bool
  | [] => false
  | c :: cs =>
      (c == 'Σ' && startsCased before && cs.all isCaseIgnorable) || endsInSigma (c :: before) cs

theorem mem_of_endsInSigma {before cs : List Char} (h : endsInSigma before cs = true) : 'Σ' ∈ cs := by
  induction cs generalizing before with
  | nil => cases h
  | cons c cs ih =>
      rcases Bool.or_eq_true_iff.1 h with h | h
      · simp only [Bool.and_eq_true, beq_iff_eq] at h
        rw [h.1.1]
        exact List.mem_cons_self
      · exact List.mem_cons_of_mem c (ih h)

/-! ### The nearest letter -/

theorem startsCased_of_all {cs : List Char} (h : cs.all isCaseIgnorable = true) :
    startsCased cs = false := by
  induction cs with
  | nil => rfl
  | cons c cs ih =>
      rw [List.all_cons, Bool.and_eq_true] at h
      rw [startsCased, if_pos h.1, ih h.2]

/-- More characters matter only to a text of nothing but case-ignorable ones. -/
theorem startsCased_append (cs ds : List Char) :
    startsCased (cs ++ ds) = if cs.all isCaseIgnorable then startsCased ds else startsCased cs := by
  induction cs with
  | nil => rfl
  | cons c cs ih =>
      rw [List.cons_append, startsCased, startsCased, List.all_cons, ih]
      cases isCaseIgnorable c with
      | true => rfl
      | false => rfl

/-- A cased letter that is near stays so when more characters follow. -/
theorem startsCased_append_left {cs : List Char} (h : startsCased cs = true) (ds : List Char) :
    startsCased (cs ++ ds) = true := by
  rw [startsCased_append]
  split
  · rename_i hall
    rw [startsCased_of_all hall] at h
    cases h
  · exact h

/-! ### Lowercase forms -/

/-- The lowercase form of a character, given the characters before it, the nearest one first, and those
after it. -/
def lowerAt (before : List Char) (c : Char) (after : List Char) : List Char :=
  if c = 'Σ' then if startsCased before && !startsCased after then ['ς'] else ['σ'] else lowerChar c

theorem lowerFrom_cons (before : List Char) (c : Char) (cs : List Char) :
    lowerFrom (startsCased before) (c :: cs)
      = lowerAt before c cs ++ lowerFrom (startsCased (c :: before)) cs := rfl

/-- More characters change the form of a capital sigma that ended a word, and nothing else. -/
theorem lowerAt_append {before cs ds : List Char} {c : Char}
    (h : ¬ (c = 'Σ' ∧ startsCased before = true ∧ cs.all isCaseIgnorable = true ∧
      startsCased ds = true)) : lowerAt before c (cs ++ ds) = lowerAt before c cs := by
  rw [lowerAt, lowerAt]
  split
  · rename_i hc
    cases hbefore : startsCased before with
    | false => rfl
    | true =>
        suffices hsame : startsCased (cs ++ ds) = startsCased cs by rw [hsame]
        rw [startsCased_append]
        split
        · rename_i hall
          have hds : startsCased ds = false :=
            Bool.eq_false_iff.2 fun hds => h ⟨hc, hbefore, hall, hds⟩
          rw [hds, startsCased_of_all hall]
        · rfl
  · rfl

/-- **The lowercase form of a beginning begins the lowercase form of the text**, unless the beginning
ends a word in a capital sigma and the text goes on with a cased letter. -/
theorem isPrefix_lowerFrom_iff (before front rest : List Char) :
    lowerFrom (startsCased before) front <+: lowerFrom (startsCased before) (front ++ rest) ↔
      ¬ (endsInSigma before front = true ∧ startsCased rest = true) := by
  induction front generalizing before with
  | nil => simp [lowerFrom, endsInSigma]
  | cons c cs ih =>
      rw [List.cons_append, lowerFrom_cons, lowerFrom_cons, endsInSigma]
      by_cases hturn : c = 'Σ' ∧ startsCased before = true ∧ cs.all isCaseIgnorable = true ∧
          startsCased rest = true
      · -- This sigma is final without the rest, and is not with it.
        obtain ⟨rfl, hbefore, hall, hrest⟩ := hturn
        have hfinal : lowerAt before 'Σ' cs = ['ς'] := by
          rw [lowerAt, hbefore, startsCased_of_all hall]
          rfl
        have hinner : lowerAt before 'Σ' (cs ++ rest) = ['σ'] := by
          rw [lowerAt, hbefore, startsCased_append, if_pos hall, hrest]
          rfl
        rw [hfinal, hinner, hbefore, hall, hrest]
        simp
      · rw [lowerAt_append hturn, List.prefix_append_right_inj, ih (c :: before)]
        have hhere : startsCased rest = true →
            (c == 'Σ' && startsCased before && cs.all isCaseIgnorable) = false := by
          intro hrest
          refine Bool.eq_false_iff.2 fun hc => ?_
          simp only [Bool.and_eq_true, beq_iff_eq] at hc
          exact hturn ⟨hc.1.1, hc.1.2, hc.2, hrest⟩
        refine not_congr (and_congr_left fun hrest => ?_)
        rw [hhere hrest, Bool.false_or]

end RexxService.Text
