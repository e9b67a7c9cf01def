import Mathlib.Data.List.Forall2
import RexxService.Proofs.Symbols.FirstSpelling
import RexxService.Proofs.Text.Lowercase

/-!
# Symbols of like texts

Two texts may differ in ways that have no part in what is found in them.  Their tokens are then alike in
some sense `R`, one after the other, and what is found in the two texts is alike in the same sense.

* **`SameWords`** — what `R` has to say: like tokens are of one kind, and they are the same word but for
  the case of letters;
* **`NameTable.Alike`**, **`Collector.Alike`** — tables and collectors that hold like tokens under the same
  names, with **`alike_note`** for one token and **`alike_sweep`** for all of them;
* **`forall₂_foldl_blocksAfter`**, **`forall₂_endFault`** — the open blocks are alike, and so are the
  faults of the `end` keywords.
-/

namespace RexxService

open RexxService.Text List

/-- Like tokens are of one kind and, unless they only separate others, the same word but for the case of
the letters `A` to `Z`. -/
def SameWords (R : Token → Token → Prop) : Prop :=
  ∀ t u, R t u → t.kind = u.kind ∧
    (t.kind.isTrivia = false → asciiLower t.text = asciiLower u.text)

/-- Tokens that are shown to a collector, alike in the sense `R` and the same word. -/
structure Token.Like (R : Token → Token → Prop) (t u : Token) : Prop where
  shown : t.kind.isTrivia = false
  kind : t.kind = u.kind
  word : asciiLower t.text = asciiLower u.text
  like : R t u

/-- Faults of one kind at like tokens. -/
def Fault.Alike (R : Token → Token → Prop) (f g : Fault) : Prop := f.kind = g.kind ∧ R f.token g.token

variable {R : Token → Token → Prop} {t u : Token}

/-- The tokens that a collector is shown are alike if all tokens are. -/
theorem forall₂_significant (hR : SameWords R) {ts us : List Token} (h : Forall₂ R ts us) :
    Forall₂ (Token.Like R) (significant ts) (significant us) := by
  induction h with
  | nil => exact .nil
  | @cons t u ts us htu _ ih =>
      obtain ⟨hkind, hword⟩ := hR t u htu
      cases ht : t.kind.isTrivia with
      | true =>
          rw [significant_cons_of_trivia ht, significant_cons_of_trivia (hkind ▸ ht)]
          exact ih
      | false =>
          rw [significant_cons_of_shown ht, significant_cons_of_shown (hkind ▸ ht)]
          exact .cons ⟨ht, hkind, hword ht, htu⟩ ih

/-! ### Names -/

/-- Tables that hold like tokens, and have seen the same names. -/
structure NameTable.Alike (R : Token → Token → Prop) (a b : NameTable) : Prop where
  tokens : Forall₂ (Token.Like R) a.tokens.toList b.tokens.toList
  seen : a.seen = b.seen

namespace NameTable

theorem alike_empty : empty.Alike R empty := ⟨.nil, rfl⟩

/-- Like tokens are registered under the same name. -/
theorem alike_register {a b : NameTable} (hab : a.Alike R b) (h : t.Like R u) :
    (a.register t).Alike R (b.register u) := by
  have hname : lowercase t.text = lowercase u.text := lowercase_eq_of_asciiLower_eq h.word
  by_cases hseen : lowercase t.text ∈ a.seen
  · rw [register_of_seen hseen, register_of_seen (hname ▸ hab.seen ▸ hseen)]
    exact hab
  · have hseen' : lowercase u.text ∉ b.seen := hname ▸ hab.seen ▸ hseen
    refine ⟨?_, ?_⟩
    · rw [tokens_register hseen, tokens_register hseen', Array.toList_push, Array.toList_push]
      exact rel_append hab.tokens (.cons h .nil)
    · rw [seen_register hseen, seen_register hseen', hname, hab.seen]

end NameTable

/-- Like tokens under the same key. -/
def Token.SameKey (R : Token → Token → Prop) (e f : String × Token) : Prop := e.1 = f.1 ∧ e.2.Like R f.2

theorem forall₂_insertByKey {e f : String × Token} {es fs : List (String × Token)}
    (hef : Token.SameKey R e f) (h : Forall₂ (Token.SameKey R) es fs) :
    Forall₂ (Token.SameKey R) (insertByKey e es) (insertByKey f fs) := by
  induction h with
  | nil => exact .cons hef .nil
  | cons hhead htail ih =>
      rw [insertByKey, insertByKey, hef.1, hhead.1]
      split
      · exact .cons hef (.cons hhead htail)
      · exact .cons hhead ih

/-- Like tokens are sorted alike. -/
theorem forall₂_sortByName {ts us : List Token} (h : Forall₂ (Token.Like R) ts us) :
    Forall₂ (Token.Like R) (sortByName ts) (sortByName us) := by
  have hkeyed : Forall₂ (Token.SameKey R) (ts.map fun t => (lowercase t.text, t))
      (us.map fun u => (lowercase u.text, u)) :=
    rel_map (fun _ _ htu => ⟨lowercase_eq_of_asciiLower_eq htu.word, htu⟩) h
  have hsorted : Forall₂ (Token.SameKey R) ((ts.map fun t => (lowercase t.text, t)).foldr insertByKey [])
      ((us.map fun u => (lowercase u.text, u)).foldr insertByKey []) := by
    refine rel_foldr ?_ .nil hkeyed
    intro e f hef es fs hes
    exact forall₂_insertByKey hef hes
  exact rel_map (fun _ _ hef => hef.2) hsorted

theorem NameTable.Alike.sorted {a b : NameTable} (h : a.Alike R b) :
    Forall₂ (Token.Like R) a.sorted b.sorted :=
  forall₂_sortByName h.tokens

theorem rel_head? {α : Type} {P : α → α → Prop} {as bs : List α} (h : Forall₂ P as bs) :
    Option.Rel P as.head? bs.head? := by
  cases h with
  | nil => exact .none
  | cons hab _ => exact .some hab

/-- Collectors that have found like names, and are both in a template or both outside. -/
structure Collector.Alike (R : Token → Token → Prop) (s s' : Collector) : Prop where
  inTemplate : s.inTemplate = s'.inTemplate
  vars : s.vars.Alike R s'.vars
  labels : s.labels.Alike R s'.labels

namespace Collector

variable {s s' : Collector} {previous previous' next next' : Option Token}

theorem alike_empty : empty.Alike R empty := ⟨rfl, NameTable.alike_empty, NameTable.alike_empty⟩

theorem alike_onKeyword (h : s.Alike R s') (htu : t.Like R u) (ht : t.kind = .keyword) :
    (s.onKeyword t).Alike R (s'.onKeyword u) := by
  rw [onKeyword_eq ht, onKeyword_eq (htu.kind ▸ ht)]
  refine ⟨?_, h.vars, h.labels⟩
  show templateAfter s.inTemplate _ = templateAfter s'.inTemplate _
  rw [h.inTemplate, htu.word]

theorem isVariable_alike (h : s.Alike R s') (htu : t.Like R u)
    (hnext : Option.Rel (Token.Like R) next next') :
    s.isVariable t next = s'.isVariable u next' := by
  rw [isVariable, isVariable, h.inTemplate, isTemplateWord, isTemplateWord, htu.word]
  cases hnext with
  | none => rfl
  | some hr => rw [Option.any_some, Option.any_some, hr.kind]

theorem alike_onIdentifier (h : s.Alike R s') (htu : t.Like R u)
    (hnext : Option.Rel (Token.Like R) next next') :
    (s.onIdentifier t next).Alike R (s'.onIdentifier u next') := by
  rw [onIdentifier, onIdentifier, isVariable_alike h htu hnext]
  split
  · exact ⟨h.inTemplate, NameTable.alike_register h.vars htu, h.labels⟩
  · exact h

theorem alike_onColon (h : s.Alike R s') (hprevious : Option.Rel (Token.Like R) previous previous') :
    (s.onColon previous).Alike R (s'.onColon previous') := by
  cases hprevious with
  | none => exact h
  | some hr => exact ⟨h.inTemplate, h.vars, NameTable.alike_register h.labels hr⟩

/-- Like tokens between like neighbours leave like collectors. -/
theorem alike_note (h : s.Alike R s') (hprevious : Option.Rel (Token.Like R) previous previous')
    (htu : t.Like R u) (hnext : Option.Rel (Token.Like R) next next') :
    (s.note previous t next).Alike R (s'.note previous' u next') := by
  have hkind := htu.kind
  by_cases hkeyword : t.kind = .keyword
  · rw [note_keyword hkeyword, note_keyword (hkind ▸ hkeyword)]
    exact alike_onKeyword h htu hkeyword
  by_cases hidentifier : t.kind = .identifier
  · rw [note_identifier hidentifier, note_identifier (hkind ▸ hidentifier)]
    exact alike_onIdentifier h htu hnext
  by_cases hcolon : t.kind = .colon
  · rw [note_colon hcolon, note_colon (hkind ▸ hcolon)]
    exact alike_onColon h hprevious
  · rw [note_other hkeyword hidentifier hcolon,
      note_other (hkind ▸ hkeyword) (hkind ▸ hidentifier) (hkind ▸ hcolon)]
    exact h

/-- Like tokens, one after the other, leave like collectors. -/
theorem alike_sweep {ts us : List Token} (hts : Forall₂ (Token.Like R) ts us) (h : s.Alike R s')
    (hprevious : Option.Rel (Token.Like R) previous previous') :
    (s.sweep previous ts).Alike R (s'.sweep previous' us) := by
  induction hts generalizing s s' previous previous' with
  | nil => exact h
  | @cons t u ts us htu hrest ih =>
      exact ih (alike_note h hprevious htu (rel_head? hrest)) (.some htu)

end Collector

/-! ### Blocks and their faults -/

theorem SameWords.isKeyword (hR : SameWords R) (h : R t u) (word : String) :
    t.isKeyword word = u.isKeyword word := by
  obtain ⟨hkind, hword⟩ := hR t u h
  by_cases hk : t.kind = .keyword
  · rw [Token.isKeyword, Token.isKeyword, ← hkind, hword (by rw [hk]; rfl)]
  · rw [isKeyword_of_ne hk, isKeyword_of_ne (hkind ▸ hk)]

theorem forall₂_blocksAfter (hR : SameWords R) {blocks blocks' : List Token}
    (hblocks : Forall₂ R blocks blocks') (h : R t u) :
    Forall₂ R (blocksAfter blocks t) (blocksAfter blocks' u) := by
  rw [blocksAfter, blocksAfter, hR.isKeyword h, hR.isKeyword h]
  split
  · exact .cons h hblocks
  · split
    · cases hblocks with
      | nil => exact .nil
      | cons _ hrest => exact hrest
    · exact hblocks

theorem forall₂_foldl_blocksAfter (hR : SameWords R) {ts us : List Token} (h : Forall₂ R ts us) :
    Forall₂ R (ts.foldl blocksAfter []) (us.foldl blocksAfter []) := by
  refine rel_foldl ?_ .nil h
  intro blocks blocks' hblocks t u htu
  exact forall₂_blocksAfter hR hblocks htu

theorem forall₂_endFault (hR : SameWords R) {blocks blocks' : List Token}
    (hblocks : Forall₂ R blocks blocks') (h : R t u) :
    Forall₂ (Fault.Alike R) (endFault blocks t).toList (endFault blocks' u).toList := by
  have hempty : blocks.isEmpty = blocks'.isEmpty := by
    cases hblocks with
    | nil => rfl
    | cons _ _ => rfl
  rw [endFault, endFault, hR.isKeyword h, hempty]
  split
  · exact .cons ⟨rfl, h⟩ .nil
  · exact .nil

end RexxService
