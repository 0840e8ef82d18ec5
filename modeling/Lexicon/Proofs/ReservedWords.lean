import Mathlib
import Lexicon.Proofs.Lexemes

/-!
# Which texts are reserved words

A reserved word is found by its upper case, and upper case is a matter of all of Unicode.  Some
characters outside ASCII have capitals in ASCII, and a ligature has several.  Nevertheless only
one of them ever stands in a reserved word, the dotless i.  A text is taken for a word exactly if
it spells this word in letters of either case, the dotless i counting as an i (`spellsWords`).

The characters fall in two kinds.  For the plain ones, those of ASCII and the dotless i, the
capital is one letter, and it is the same as the letter up to its case (`lower_capital`).  For
all others the capital is no part of a reserved word (`not_infix_capital`).  This is read off the
table: what the ligatures and the long s have as their capitals stands in no word, and all other
capitals have a character outside ASCII.
-/

namespace Lexicon

open Text

namespace Word

variable {c d : Char} {s : Text} {w : Word}

/-! ## Letters -/

/-- A text with an i in the place of each dotless i. -/
def undotted (s : Text) : Text := s.map fun c => if c = 'ı' then 'i' else c

/-- Whether a character can stand in a reserved word as it is written. -/
def IsPlain (c : Char) : Prop := c.toNat < 128 ∨ c = 'ı'

theorem toNat_of_mem_spelling (h : c ∈ w.spelling) : 97 ≤ c.toNat ∧ c.toNat ≤ 122 := by
  have hall : w.spelling.all (fun c => decide (97 ≤ c.toNat ∧ c.toNat ≤ 122)) = true := by
    cases w <;> decide
  exact of_decide_eq_true (List.all_eq_true.1 hall c h)

theorem toLower_eq_self (h : c.toNat < 65 ∨ 90 < c.toNat) : c.toLower = c := by
  refine Char.toLower_eq_of_not_isUpper fun hupper => ?_
  obtain ⟨hge, hle⟩ := of_decide_eq_true hupper
  have hge : 65 ≤ c.toNat := UInt32.le_iff_toNat_le.1 hge
  have hle : c.toNat ≤ 90 := UInt32.le_iff_toNat_le.1 hle
  omega

/-- No reserved word has a letter outside ASCII. -/
theorem toLower_not_mem_spelling (h : c.toNat = 0 ∨ 128 ≤ c.toNat) : c.toLower ∉ w.spelling := by
  rw [toLower_eq_self (by omega)]
  intro hmem
  have hbounds := toNat_of_mem_spelling hmem
  omega

theorem sameLetters_iff : sameLetters s w.spelling = true ↔ s.map Char.toLower = w.spelling := by
  have hspelling : w.spelling.map Char.toLower = w.spelling := by cases w <;> decide
  rw [sameLetters, hspelling, beq_iff_eq]

/-! ## Capitals of plain characters -/

theorem bounds_of_at? {r : Capital.Run} {n code : Nat} (h : r.at? n = some code) :
    r.first ≤ n ∧ n ≤ r.last ∧ code = r.capital + (n - r.first) := by
  rw [Capital.Run.at?] at h
  split at h
  · rename_i hbounds
    exact ⟨hbounds.1, hbounds.2.1, (Option.some.inj h).symm⟩
  · cases h

/-- A capital is one of those in the table, or the character itself. -/
theorem capital_cases (c : Char) :
    (∃ codes, (c.toNat, codes) ∈ Capital.expansions ∧ capital c = codes.map Char.ofNat) ∨
    (∃ r ∈ Capital.runs, ∃ code, r.at? c.toNat = some code ∧ capital c = [Char.ofNat code]) ∨
    capital c = [c] := by
  rw [capital]
  cases hlookup : Capital.expansions.lookup c.toNat with
  | some codes =>
    obtain ⟨before, behind, htable, -⟩ := List.lookup_eq_some_iff.1 hlookup
    exact Or.inl ⟨codes, htable ▸ by simp, rfl⟩
  | none =>
    cases hrun : Capital.runs.findSome? (·.at? c.toNat) with
    | some code =>
      obtain ⟨r, hr, hat⟩ := List.exists_of_findSome?_eq_some hrun
      exact Or.inr (Or.inl ⟨r, hr, code, hat, rfl⟩)
    | none => exact Or.inr (Or.inr rfl)

theorem expansions_above : ∀ e ∈ Capital.expansions, 128 ≤ e.1 := by decide +kernel

theorem runs_above : ∀ r ∈ Capital.runs, 128 ≤ r.first ∨ r = ⟨0x61, 0x7A, 1, 0x41⟩ := by
  decide +kernel

theorem toLower_small : ∀ n < 26,
    (Char.ofNat (0x41 + n)).toLower = (Char.ofNat (0x61 + n)).toLower := by
  decide

/-- The capital of a plain character is that character up to its case. -/
theorem lower_capital (h : IsPlain c) :
    (capital c).map Char.toLower = (undotted [c]).map Char.toLower := by
  rcases h with hascii | rfl
  · have hdotless : c ≠ 'ı' := by
      rintro rfl
      exact absurd hascii (by decide)
    have hundotted : undotted [c] = [c] := by rw [undotted, List.map_singleton, if_neg hdotless]
    rw [hundotted]
    rcases capital_cases c with ⟨codes, hmem, -⟩ | ⟨r, hr, code, hat, hcapital⟩ | hcapital
    · have habove := expansions_above _ hmem
      omega
    · obtain ⟨hfirst, hlast, rfl⟩ := bounds_of_at? hat
      rcases runs_above r hr with habove | rfl
      · omega
      · -- a small letter
        have hlast : c.toNat ≤ 0x7A := hlast
        have hsmall := toLower_small (c.toNat - 0x61) (by omega)
        rw [Nat.add_sub_cancel' hfirst, Char.ofNat_toNat] at hsmall
        rw [hcapital, List.map_singleton, hsmall]
        rfl
    · rw [hcapital]
  · rw [capital_dotless_i]
    decide

theorem upperCase_cons (c : Char) (s : Text) : upperCase (c :: s) = capital c ++ upperCase s := rfl

theorem lower_upperCase (h : ∀ c ∈ s, IsPlain c) :
    (upperCase s).map Char.toLower = (undotted s).map Char.toLower := by
  induction s with
  | nil => rfl
  | cons c s ih =>
    rw [List.forall_mem_cons] at h
    rw [upperCase_cons, List.map_append, lower_capital h.1, ih h.2]
    rfl

/-! ## Capitals of the other characters -/

theorem expansions_outside : ∀ e ∈ Capital.expansions, ∀ w ∈ all,
    ¬(e.2.map Char.ofNat).map Char.toLower <:+: w.spelling := by
  decide +kernel

theorem runs_outside : ∀ r ∈ Capital.runs, r.last < 128 ∨ 128 ≤ r.capital ∨
    r = ⟨0x131, 0x131, 1, 0x49⟩ ∨ r = ⟨0x17F, 0x17F, 1, 0x53⟩ := by
  decide +kernel

theorem not_infix_of_not_mem (h : d ∉ w.spelling) : ¬[d] <:+: w.spelling := fun hpart =>
  h (hpart.subset (List.mem_singleton_self d))

/-- The capital of any other character is no part of a reserved word. -/
theorem not_infix_capital (h : ¬IsPlain c) (w : Word) :
    ¬(capital c).map Char.toLower <:+: w.spelling := by
  obtain ⟨hascii, hdotless⟩ := not_or.1 h
  rw [Nat.not_lt] at hascii
  rcases capital_cases c with ⟨codes, hmem, hcapital⟩ | ⟨r, hr, code, hat, hcapital⟩ | hcapital
  · rw [hcapital]
    exact expansions_outside _ hmem w (mem_all w)
  · obtain ⟨hfirst, hlast, rfl⟩ := bounds_of_at? hat
    rw [hcapital]
    apply not_infix_of_not_mem
    rcases runs_outside r hr with hbelow | habove | rfl | rfl
    · omega
    · apply toLower_not_mem_spelling
      rw [Char.toNat_ofNat]
      split <;> omega
    · have hc : c.toNat = 'ı'.toNat := Nat.le_antisymm hlast hfirst
      exact absurd (Char.toNat_inj.1 hc) hdotless
    · -- the long s
      have hc : c.toNat = 0x17F := Nat.le_antisymm hlast hfirst
      rw [hc]
      cases w <;> decide
  · rw [hcapital]
    exact not_infix_of_not_mem (toLower_not_mem_spelling (Or.inr hascii))

/-! ## Words and spellings -/

/-- A text is taken for the word that its upper case spells. -/
theorem ofText?_eq_some_iff :
    ofText? s = some w ↔ (upperCase s).map Char.toLower = w.spelling := by
  have hspells : ∀ {v}, ofText? s = some v → (upperCase s).map Char.toLower = v.spelling := by
    intro v hv
    have hsame : sameLetters (upperCase s) v.spelling = true := by
      simpa using List.find?_some hv
    exact sameLetters_iff.1 hsame
  refine ⟨hspells, fun h => ?_⟩
  cases hfind : ofText? s with
  | none => exact absurd (sameLetters_iff.2 h) (List.find?_eq_none.1 hfind w (mem_all w))
  | some v =>
    have hspelling := (hspells hfind).symm.trans h
    revert hspelling
    cases v <;> cases w <;> decide

/-- A text whose upper case spells a word has plain characters only. -/
theorem isPlain_of_upperCase (h : (upperCase s).map Char.toLower = w.spelling) :
    ∀ c ∈ s, IsPlain c := by
  intro c hc
  by_contra hplain
  obtain ⟨before, behind, rfl⟩ := List.append_of_mem hc
  refine not_infix_capital hplain w ⟨(upperCase before).map Char.toLower,
    (upperCase behind).map Char.toLower, ?_⟩
  rw [← h, upperCase_append, upperCase_cons, List.map_append, List.map_append, List.append_assoc]

/-- A text that spells a word has plain characters only. -/
theorem isPlain_of_undotted (h : (undotted s).map Char.toLower = w.spelling) :
    ∀ c ∈ s, IsPlain c := by
  intro c hc
  by_contra hplain
  obtain ⟨hascii, hdotless⟩ := not_or.1 hplain
  refine toLower_not_mem_spelling (w := w) (Or.inr (Nat.not_lt.1 hascii)) ?_
  rw [← h, undotted, List.map_map]
  exact List.mem_map.2 ⟨c, hc, by rw [Function.comp_apply, if_neg hdotless]⟩

theorem ofText?_iff :
    ofText? s = some w ↔ sameLetters (undotted s) w.spelling = true := by
  rw [ofText?_eq_some_iff, sameLetters_iff]
  constructor
  · intro h
    rw [← lower_upperCase (isPlain_of_upperCase h), h]
  · intro h
    rw [lower_upperCase (isPlain_of_undotted h), h]

end Word

namespace Lexeme

/-- Whether a text is a run of name characters that a name can start with. -/
def IsRun (text : Text) : Prop :=
  (∀ c ∈ text, continuesName c = true) ∧ ∃ c ∈ text.head?, startsName c = true

theorem name_of_isRun {text rest : Text} (h : IsRun text) (hrest : rest.atBoundary = true) :
    name (text ++ rest) = some (.token (nameToken text) rest) := by
  obtain ⟨hall, c, hhead, hc⟩ := h
  obtain ⟨run, rfl⟩ := List.head?_eq_some_iff.1 hhead
  exact name_of_run hc (List.forall_mem_cons.1 hall).2 hrest

end Lexeme

open Lexeme Word

/-- What makes a text a reserved word. -/
structure SpellsWords (text : Text) : Prop where
  /-- It is taken for the word that it spells in letters of either case, the dotless i being
  an i. -/
  word : ∀ w, ofText? text = some w ↔ sameLetters (undotted text) w.spelling = true
  /-- It is no word with a character outside ASCII other than the dotless i. -/
  plain : ∀ w, ofText? text = some w → ∀ c ∈ text, c.toNat < 128 ∨ c = 'ı'
  /-- As a run of name characters in front of a boundary it is read as the word it spells. -/
  reserved : ∀ w rest, IsRun text → rest.atBoundary = true →
    sameLetters (undotted text) w.spelling = true →
      name (text ++ rest) = some (.token (.word w) rest)
  /-- When it spells no word it is read as a name that has all of its text. -/
  kept : ∀ rest, IsRun text → rest.atBoundary = true →
    (∀ w : Word, sameLetters (undotted text) w.spelling = false) →
      name (text ++ rest) = some (.token (.name text) rest)

/-- The reserved words are spelled with letters of either case and the dotless i, and every other
run of name characters is a name. -/
theorem spellsWords (text : Text) : SpellsWords text where
  word _ := ofText?_iff
  plain _ h := isPlain_of_upperCase (ofText?_eq_some_iff.1 h)
  reserved w rest hrun hrest hw := by
    rw [name_of_isRun hrun hrest, nameToken, ofText?_iff.2 hw]
  kept rest hrun hrest hno := by
    have hnone : ofText? text = none := by
      cases htext : ofText? text with
      | none => rfl
      | some w =>
        have hw := ofText?_iff.1 htext
        rw [hno w] at hw
        cases hw
    rw [name_of_isRun hrun hrest, nameToken, hnone]

example : ofText? ['ı', 'F'] = some .cond := by decide +kernel

end Lexicon
