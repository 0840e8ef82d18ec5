import Lexicon.Token.Mark

/-!
# Runs, blanks and boundaries

The rules of reading take the longest run of some class of characters and then
look at what follows it.  A text *stops* a class when it does not start with a
character of the class.  What is put in front of such a text can be split into
run and rest as if the text were not there (`Stops.takeWhile_append`,
`Stops.dropWhile_append`).

A text is *at a blank* when it has come to its end or goes on with a blank.  Such
a text is at a boundary, and stops the decimal digits.

`trimEnd` removes the blanks at the end of a text.  A text that has none is its
own trimmed text, and so is every end of it (`trimEnd_eq_self_of_suffix`).
`trimEnd_append` says how much of a concatenation is trimmed.
-/

namespace Lexicon.Text

variable {p : Char → Bool} {t u : Text}

/-! ## Runs -/

/-- Whether a text does not start with a character of a class. -/
def Stops (p : Char → Bool) (t : Text) : Prop := ∀ c ∈ t.head?, p c = false

theorem stops_nil : Stops p [] := by
  intro c hc
  cases hc

@[simp] theorem stops_cons {c : Char} : Stops p (c :: t) ↔ p c = false := by
  simp [Stops]

theorem stops_dropWhile (p : Char → Bool) (t : Text) : Stops p (t.dropWhile p) := by
  induction t with
  | nil => exact stops_nil
  | cons c t ih =>
    rw [List.dropWhile_cons]
    split
    · exact ih
    · rename_i hc
      exact stops_cons.2 (by simpa using hc)

theorem Stops.takeWhile_eq (h : Stops p t) : t.takeWhile p = [] := by
  cases t with
  | nil => rfl
  | cons c t => simp [stops_cons.1 h]

theorem Stops.dropWhile_eq (h : Stops p t) : t.dropWhile p = t := by
  cases t with
  | nil => rfl
  | cons c t => simp [stops_cons.1 h]

/-- The run in front of a text that stops it. -/
theorem Stops.takeWhile_append (h : Stops p t) (u : Text) :
    (u ++ t).takeWhile p = u.takeWhile p := by
  induction u with
  | nil => exact h.takeWhile_eq
  | cons c u ih => rw [List.cons_append, List.takeWhile_cons, List.takeWhile_cons, ih]

/-- The rest in front of a text that stops the run. -/
theorem Stops.dropWhile_append (h : Stops p t) (u : Text) :
    (u ++ t).dropWhile p = u.dropWhile p ++ t := by
  induction u with
  | nil => exact h.dropWhile_eq
  | cons c u ih =>
    rw [List.cons_append, List.dropWhile_cons, List.dropWhile_cons, ih]
    split <;> rfl

/-- A run of the class, followed by a text that stops it. -/
theorem Stops.split_append (h : Stops p t) (hu : ∀ c ∈ u, p c = true) :
    (u ++ t).takeWhile p = u ∧ (u ++ t).dropWhile p = t := by
  constructor
  · rw [List.takeWhile_append_of_pos hu, h.takeWhile_eq, List.append_nil]
  · rw [List.dropWhile_append_of_pos hu, h.dropWhile_eq]

theorem forall_mem_takeWhile (p : Char → Bool) (t : Text) : ∀ c ∈ t.takeWhile p, p c = true :=
  List.all_eq_true.1 List.all_takeWhile

/-! ## Boundaries -/

theorem exists_mark_of_isBoundary {c : Char} (h : isBoundary c = true) :
    isBlank c = true ∨ ∃ m : Mark, c = m.char := by
  rw [isBoundary, Bool.or_eq_true] at h
  rcases h with h | h
  · exact Or.inl h
  · obtain ⟨m, hm⟩ := Option.isSome_iff_exists.1 h
    exact Or.inr ⟨m, (Mark.char_of_ofChar? hm).symm⟩

/-- The four blanks, one by one. -/
theorem eq_of_isBlank {c : Char} (h : isBlank c = true) :
    c = ' ' ∨ c = '\t' ∨ c = '\r' ∨ c = '\n' := by
  simpa [isBlank, or_assoc] using h

theorem isBoundary_of_isBlank {c : Char} (h : isBlank c = true) : isBoundary c = true := by
  simp [isBoundary, h]

theorem isDigit_of_isBoundary {c : Char} (h : isBoundary c = true) : c.isDigit = false := by
  rcases exists_mark_of_isBoundary h with h | ⟨m, rfl⟩
  · rcases eq_of_isBlank h with rfl | rfl | rfl | rfl <;> decide
  · cases m <;> decide

theorem stops_isDigit_of_atBoundary (h : t.atBoundary = true) : Stops Char.isDigit t := by
  cases t with
  | nil => exact stops_nil
  | cons c t => exact stops_cons.2 (isDigit_of_isBoundary h)

/-! ## Texts at a blank -/

/-- Whether a text has come to its end or goes on with a blank. -/
def AtBlank (t : Text) : Prop := ∀ c ∈ t.head?, isBlank c = true

theorem atBlank_nil : AtBlank [] := by
  intro c hc
  cases hc

@[simp] theorem atBlank_cons {c : Char} : AtBlank (c :: t) ↔ isBlank c = true := by
  simp [AtBlank]

theorem AtBlank.atBoundary (h : AtBlank t) : t.atBoundary = true := by
  cases t with
  | nil => rfl
  | cons c t => exact isBoundary_of_isBlank (atBlank_cons.1 h)

theorem AtBlank.stops_isDigit (h : AtBlank t) : Stops Char.isDigit t :=
  stops_isDigit_of_atBoundary h.atBoundary

/-- A character that is no blank does not follow. -/
theorem AtBlank.ne_cons (h : AtBlank t) {c : Char} (hc : isBlank c = false) (u : Text) :
    t ≠ c :: u := by
  rintro rfl
  rw [atBlank_cons.1 h] at hc
  exact Bool.noConfusion hc

/-- The end of the text in front is no matter for what stands at a blank. -/
theorem atBoundary_append (h : AtBlank t) (u : Text) : (u ++ t).atBoundary = u.atBoundary := by
  cases u with
  | nil => exact h.atBoundary
  | cons c u => rfl

/-! ## Texts of blanks -/

/-- Whether every character is a blank. -/
def AllBlank (t : Text) : Prop := ∀ c ∈ t, isBlank c = true

theorem allBlank_nil : AllBlank [] := by
  intro c hc
  cases hc

@[simp] theorem allBlank_cons {c : Char} : AllBlank (c :: t) ↔ isBlank c = true ∧ AllBlank t := by
  simp [AllBlank]

theorem allBlank_append (ht : AllBlank t) (hu : AllBlank u) : AllBlank (t ++ u) := by
  intro c hc
  rcases List.mem_append.1 hc with hc | hc
  · exact ht c hc
  · exact hu c hc

theorem AllBlank.atBlank (h : AllBlank t) : AtBlank t := fun c hc => h c (List.mem_of_mem_head? hc)

theorem AllBlank.atBlank_append (h : AllBlank t) (hne : t ≠ []) (u : Text) : AtBlank (t ++ u) := by
  cases t with
  | nil => exact absurd rfl hne
  | cons c t => exact atBlank_cons.2 (h c (by simp))

theorem AllBlank.dropWhile_eq_nil (h : AllBlank t) : t.dropWhile isBlank = [] := by
  have hsplit := (stops_nil : Stops isBlank []).split_append h
  rw [List.append_nil] at hsplit
  exact hsplit.2

/-! ## Trimming -/

theorem allBlank_of_dropWhile_eq_nil (h : t.dropWhile isBlank = []) : AllBlank t := by
  have hsplit := List.takeWhile_append_dropWhile (p := isBlank) (l := t)
  rw [h, List.append_nil] at hsplit
  rw [← hsplit]
  exact forall_mem_takeWhile isBlank t

@[simp] theorem trimEnd_nil : trimEnd [] = [] := rfl

theorem trimEnd_eq_nil_iff : trimEnd t = [] ↔ AllBlank t := by
  constructor
  · intro h c hc
    have hrev : AllBlank t.reverse := allBlank_of_dropWhile_eq_nil (by simpa [trimEnd] using h)
    exact hrev c (by simpa using hc)
  · intro h
    have hrev : AllBlank t.reverse := fun c hc => h c (by simpa using hc)
    rw [trimEnd, hrev.dropWhile_eq_nil]
    rfl

/-- A concatenation is trimmed in its second part, and in the first one only when
nothing is left of the second. -/
theorem trimEnd_append (t u : Text) :
    trimEnd (t ++ u) = if trimEnd u = [] then trimEnd t else t ++ trimEnd u := by
  rw [trimEnd, List.reverse_append, List.dropWhile_append]
  simp only [trimEnd, List.isEmpty_iff, List.reverse_eq_nil_iff]
  split
  · rfl
  · rw [List.reverse_append, List.reverse_reverse]

theorem trimEnd_append_allBlank (h : AllBlank u) (t : Text) : trimEnd (t ++ u) = trimEnd t := by
  rw [trimEnd_append, if_pos (trimEnd_eq_nil_iff.2 h)]

theorem trimEnd_append_of_ne_nil (h : trimEnd u ≠ []) (t : Text) :
    trimEnd (t ++ u) = t ++ trimEnd u := by
  rw [trimEnd_append, if_neg h]

/-- A text is its trimmed text and some blanks. -/
theorem exists_trimEnd_append (t : Text) : ∃ b, AllBlank b ∧ trimEnd t ++ b = t := by
  refine ⟨(t.reverse.takeWhile isBlank).reverse, ?_, trimEnd_append_blanks t⟩
  intro c hc
  exact forall_mem_takeWhile isBlank t.reverse c (by simpa using hc)

theorem trimEnd_eq_self_iff : trimEnd t = t ↔ Stops isBlank t.reverse := by
  constructor
  · intro h
    have hrev : t.reverse = t.reverse.dropWhile isBlank := by
      rw [← List.reverse_inj, List.reverse_reverse]
      exact h.symm
    rw [hrev]
    exact stops_dropWhile isBlank t.reverse
  · intro h
    rw [trimEnd, h.dropWhile_eq, List.reverse_reverse]

theorem trimEnd_trimEnd (t : Text) : trimEnd (trimEnd t) = trimEnd t := by
  rw [trimEnd_eq_self_iff, trimEnd, List.reverse_reverse]
  exact stops_dropWhile isBlank t.reverse

theorem trimEnd_eq_self_of_suffix (h : t <:+ u) (hu : trimEnd u = u) : trimEnd t = t := by
  obtain ⟨s, rfl⟩ := h
  rw [trimEnd_eq_self_iff] at *
  intro c hc
  refine hu c ?_
  rw [List.reverse_append, List.head?_append, Option.mem_def.1 hc]
  rfl

theorem trimEnd_concat {c : Char} (h : isBlank c = false) (t : Text) :
    trimEnd (t ++ [c]) = t ++ [c] := by
  rw [trimEnd_eq_self_iff, List.reverse_append]
  exact stops_cons.2 h

theorem AtBlank.trimEnd (h : AtBlank t) : AtBlank (trimEnd t) := by
  obtain ⟨b, -, hb⟩ := exists_trimEnd_append t
  intro c hc
  refine h c ?_
  rw [← hb, List.head?_append, Option.mem_def.1 hc]
  rfl

end Lexicon.Text
