import Lexicon.Lexeme.Comment
import Lexicon.Proofs.Blanks

/-!
# The ends of block comments

Whether a slash and a star open a comment depends on whether a star and a slash
stand anywhere behind them, however far away.  `closings` counts these pairs in a
text.  Two pairs never share a character, so the pairs of the parts of a text are
at most the pairs of the text (`closings_append_le`), and they are all of them
when no pair lies across the cut (`closings_append`).

`afterClose?` passes over exactly one pair, the first one
(`closings_of_afterClose?`), and there is nothing to find in a text without pairs
(`afterClose?_eq_none_iff`).
-/

namespace Lexicon.Lexeme

open Text

variable {t u rest : Text}

/-! ## Counting -/

/-- How often a star is followed by a slash. -/
def closings : Text → Nat
  | [] => 0
  | '*' :: '/' :: t => closings t + 1
  | _ :: t => closings t
termination_by structural t => t

@[simp] theorem closings_nil : closings [] = 0 := rfl

/-- A first character counts when it is a star in front of a slash. -/
theorem closings_cons (c : Char) (t : Text) :
    closings (c :: t) = closings t + if c = '*' ∧ t.head? = some '/' then 1 else 0 := by
  by_cases hpair : c = '*' ∧ t.head? = some '/'
  · obtain ⟨rfl, ht⟩ := hpair
    obtain ⟨u, rfl⟩ := List.head?_eq_some_iff.1 ht
    simp [closings]
  · rw [if_neg hpair, closings, Nat.add_zero]
    rintro u rfl rfl
    exact hpair ⟨rfl, rfl⟩

theorem closings_cons_of_ne {c : Char} (h : c ≠ '*') (t : Text) :
    closings (c :: t) = closings t := by
  rw [closings_cons, if_neg (fun hc => h hc.1), Nat.add_zero]

theorem closings_le_cons (c : Char) (t : Text) : closings t ≤ closings (c :: t) := by
  rw [closings_cons]
  exact Nat.le_add_right _ _

theorem closings_append_le (t u : Text) : closings t + closings u ≤ closings (t ++ u) := by
  induction t with
  | nil => simp
  | cons c t ih =>
    rw [List.cons_append, closings_cons, closings_cons]
    split
    · rename_i hpair
      have hhead : (t ++ u).head? = some '/' := by rw [List.head?_append, hpair.2]; rfl
      rw [if_pos ⟨hpair.1, hhead⟩]
      omega
    · omega

/-- No pair lies across a cut that is not followed by a slash. -/
theorem closings_append (t : Text) (h : u.head? ≠ some '/') :
    closings (t ++ u) = closings t + closings u := by
  induction t with
  | nil => simp
  | cons c t ih =>
    have hhead : (t ++ u).head? = some '/' ↔ t.head? = some '/' := by
      cases t with
      | nil => simpa using h
      | cons d t => simp
    rw [List.cons_append, closings_cons, closings_cons, ih]
    simp only [hhead]
    omega

theorem closings_append_atBlank (t : Text) (h : AtBlank u) :
    closings (t ++ u) = closings t + closings u := by
  refine closings_append t fun hhead => ?_
  obtain ⟨v, rfl⟩ := List.head?_eq_some_iff.1 hhead
  exact h.ne_cons rfl v rfl

theorem closings_allBlank_append (h : AllBlank t) (u : Text) :
    closings (t ++ u) = closings u := by
  induction t with
  | nil => rfl
  | cons c t ih =>
    obtain ⟨hc, ht⟩ := allBlank_cons.1 h
    have hne : c ≠ '*' := by
      rintro rfl
      exact absurd hc (by decide)
    rw [List.cons_append, closings_cons_of_ne hne, ih ht]

theorem closings_allBlank (h : AllBlank t) : closings t = 0 := by
  simpa using closings_allBlank_append h []

/-- Blanks at the end end no comment. -/
theorem closings_trimEnd (t : Text) : closings (trimEnd t) = closings t := by
  obtain ⟨b, hblank, hb⟩ := exists_trimEnd_append t
  conv => rhs; rw [← hb]
  rw [closings_append_atBlank _ hblank.atBlank, closings_allBlank hblank, Nat.add_zero]

theorem closings_eq_zero_iff : closings t = 0 ↔ ¬['*', '/'] <:+: t := by
  induction t with
  | nil => simp
  | cons c t ih =>
    have hpair : ['*', '/'] <+: c :: t ↔ c = '*' ∧ t.head? = some '/' := by
      cases t with
      | nil => simp [List.cons_prefix_cons]
      | cons d t => simp [List.cons_prefix_cons, eq_comm]
    rw [closings_cons, List.infix_cons_iff, hpair, not_or, ← ih]
    split <;> simp_all

/-! ## Looking for the first pair -/

theorem closings_of_afterClose? (h : afterClose? t = some rest) :
    closings t = closings rest + 1 := by
  fun_induction afterClose? t with
  | case1 => cases h
  | case2 r =>
    obtain rfl : r = rest := Option.some.inj h
    rfl
  | case3 c r hpair ih =>
    rw [← ih h, closings]
    exact hpair

theorem afterClose?_eq_none_iff : afterClose? t = none ↔ closings t = 0 := by
  fun_induction afterClose? t with
  | case1 => simp
  | case2 r => simp [closings]
  | case3 c r hpair ih =>
    rw [ih, closings]
    exact hpair

/-- What stands in front of the first pair has no pair. -/
theorem exists_of_afterClose? (h : afterClose? t = some rest) :
    ∃ body, t = body ++ '*' :: '/' :: rest ∧ closings body = 0 := by
  fun_induction afterClose? t with
  | case1 => cases h
  | case2 r =>
    obtain rfl : r = rest := Option.some.inj h
    exact ⟨[], rfl, rfl⟩
  | case3 c r hpair ih =>
    obtain ⟨body, rfl, hbody⟩ := ih h
    refine ⟨c :: body, rfl, ?_⟩
    have hno : ¬(c = '*' ∧ body.head? = some '/') := by
      rintro ⟨rfl, hhead⟩
      obtain ⟨v, rfl⟩ := List.head?_eq_some_iff.1 hhead
      exact hpair (v ++ '*' :: '/' :: rest) rfl rfl
    rw [closings_cons, if_neg hno, hbody]

theorem afterClose?_append (h : afterClose? t = some rest) (u : Text) :
    afterClose? (t ++ u) = some (rest ++ u) := by
  fun_induction afterClose? t with
  | case1 => cases h
  | case2 r =>
    obtain rfl : r = rest := Option.some.inj h
    rfl
  | case3 c r hpair ih =>
    have hpair' : ∀ v, c = '*' → r ++ u = '/' :: v → False := by
      rintro v rfl hv
      cases r with
      | nil => cases h
      | cons d r =>
        obtain ⟨rfl, -⟩ := List.cons.inj hv
        exact hpair r rfl rfl
    rw [List.cons_append, afterClose?, ih h]
    exact hpair'

/-! ## Block comments -/

theorem blockComment_eq_none_iff :
    blockComment t = none ↔ ∀ body, t = '/' :: '*' :: body → closings body = 0 := by
  fun_cases blockComment t with
  | case1 body =>
    rw [Option.map_eq_none_iff, afterClose?_eq_none_iff]
    constructor
    · rintro h b hb
      obtain rfl : body = b := by simpa using hb
      exact h
    · exact fun h => h body rfl
  | case2 t hopen =>
    simp only [true_iff]
    intro body hbody
    exact absurd hbody (hopen body)

/-- A block comment goes up to the first pair behind its opening. -/
theorem exists_of_blockComment {r : Reading} (h : blockComment t = some r) :
    ∃ body rest, t = '/' :: '*' :: (body ++ '*' :: '/' :: rest) ∧ closings body = 0 ∧
      r = .comment rest := by
  fun_cases blockComment t with
  | case1 text =>
    obtain ⟨rest, hrest, rfl⟩ := Option.map_eq_some_iff.1 h
    obtain ⟨body, rfl, hbody⟩ := exists_of_afterClose? hrest
    exact ⟨body, rest, rfl, hbody, rfl⟩
  | case2 t hopen => simp [blockComment] at h

/-- A line comment goes up to the end of its line. -/
theorem exists_of_lineComment {r : Reading} (h : lineComment t = some r) :
    ∃ body rest, t = '/' :: '/' :: (body ++ rest) ∧ '\n' ∉ body ∧ Stops (· != '\n') rest ∧
      r = .comment rest := by
  fun_cases lineComment t with
  | case1 text =>
    obtain rfl := Option.some.inj h
    refine ⟨text.takeWhile (· != '\n'), text.dropWhile (· != '\n'), ?_, ?_,
      stops_dropWhile _ text, rfl⟩
    · rw [List.takeWhile_append_dropWhile]
    · intro hmem
      simpa using forall_mem_takeWhile _ _ _ hmem
  | case2 t hopen => simp [lineComment] at h

end Lexicon.Lexeme
