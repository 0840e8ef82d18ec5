import Mathlib.Tactic.SplitIfs
import Lexicon.Text.Quoted
import Lexicon.Toml.Scalar
import Lexicon.Proofs.Blanks

/-!
# Quoted texts are told apart

A quoted text has no line feed (`newline_not_mem_quoted`), and two texts with the same quoted
form are the same (`quoted_injective`).

The written forms of characters have different lengths, so they are read back one at a time.
`readEscape?` takes a character off a text by its first characters alone, and gives the
character whose written form stands there (`readEscape?_escape`).  It refuses the quote that
closes the text.  A code stands between braces, and its hexadecimal digits give the number
back (`hexValue_hexadecimal`).
-/

namespace Lexicon.Text

open Toml (hexDigit?)

variable {a b : Text} {n : Nat}

/-! ## Hexadecimal numbers -/

/-- The number that hexadecimal digits stand for. -/
def hexValue (digits : Text) : Nat :=
  digits.foldl (fun value c => 16 * value + (hexDigit? c).getD 0) 0

theorem hexDigit?_digitChar {d : Nat} (h : d < 16) : hexDigit? d.digitChar = some d := by
  have hall : ∀ d < 16, hexDigit? d.digitChar = some d := by decide
  exact hall d h

theorem hexadecimal_of_lt (h : n < 16) : hexadecimal n = [n.digitChar] :=
  Nat.toDigits_of_lt_base h

theorem hexadecimal_of_le (h : 16 ≤ n) :
    hexadecimal n = hexadecimal (n / 16) ++ [(n % 16).digitChar] :=
  Nat.toDigits_of_base_le (by decide) h

theorem hexValue_concat (digits : Text) (c : Char) :
    hexValue (digits ++ [c]) = 16 * hexValue digits + (hexDigit? c).getD 0 := by
  simp [hexValue]

theorem hexValue_hexadecimal (n : Nat) : hexValue (hexadecimal n) = n := by
  induction n using Nat.strongRecOn with
  | ind n ih =>
    by_cases hn : n < 16
    · rw [hexadecimal_of_lt hn, hexValue, List.foldl_cons, List.foldl_nil, hexDigit?_digitChar hn,
        Option.getD_some, Nat.mul_zero, Nat.zero_add]
    · have hlt : n / 16 < n := Nat.div_lt_self (by omega) (by decide)
      rw [hexadecimal_of_le (Nat.le_of_not_lt hn), hexValue_concat, ih _ hlt,
        hexDigit?_digitChar (Nat.mod_lt n (by decide)), Option.getD_some, Nat.div_add_mod]

theorem exists_digit_of_mem_hexadecimal {c : Char} (h : c ∈ hexadecimal n) :
    ∃ d < 16, c = d.digitChar := by
  induction n using Nat.strongRecOn with
  | ind n ih =>
    by_cases hn : n < 16
    · rw [hexadecimal_of_lt hn, List.mem_singleton] at h
      exact ⟨n, hn, h⟩
    · rw [hexadecimal_of_le (Nat.le_of_not_lt hn), List.mem_append, List.mem_singleton] at h
      rcases h with h | h
      · exact ih _ (Nat.div_lt_self (by omega) (by decide)) h
      · exact ⟨n % 16, Nat.mod_lt n (by decide), h⟩

/-- What is no hexadecimal digit is not among them. -/
theorem not_mem_hexadecimal {c : Char} (h : hexDigit? c = none) (n : Nat) :
    c ∉ hexadecimal n := by
  intro hmem
  obtain ⟨d, hd, rfl⟩ := exists_digit_of_mem_hexadecimal hmem
  rw [hexDigit?_digitChar hd] at h
  cases h

/-! ## One character at a time -/

/-- The character that is written after a backslash, and what follows it. -/
def readEscaped? : Text → Option (Char × Text)
  | [] => none
  | c :: t =>
    if c = 'n' then some ('\n', t)
    else if c = 'r' then some ('\r', t)
    else if c = 't' then some ('\t', t)
    else if c = '0' then some ('\x00', t)
    else if c = 'u' then
      some (Char.ofNat (hexValue (t.tail.takeWhile (· != '}'))),
        (t.tail.dropWhile (· != '}')).tail)
    else some (c, t)

/-- The character whose written form comes first, and what follows the form. -/
def readEscape? : Text → Option (Char × Text)
  | [] => none
  | c :: t => if c = '"' then none else if c = '\\' then readEscaped? t else some (c, t)

/-- A code between braces is read as the character with that code. -/
theorem readEscaped?_code (c : Char) (t : Text) :
    readEscaped? ('u' :: '{' :: (hexadecimal c.toNat ++ '}' :: t)) = some (c, t) := by
  have hdigits : ∀ d ∈ hexadecimal c.toNat, (d != '}') = true := by
    intro d hd
    rw [bne_iff_ne]
    rintro rfl
    exact not_mem_hexadecimal (by decide) _ hd
  have hstops : Stops (· != '}') ('}' :: t) := stops_cons.2 (by decide)
  obtain ⟨htake, hdrop⟩ := hstops.split_append hdigits
  show some (Char.ofNat (hexValue ((hexadecimal c.toNat ++ '}' :: t).takeWhile (· != '}'))),
    ((hexadecimal c.toNat ++ '}' :: t).dropWhile (· != '}')).tail) = some (c, t)
  rw [htake, hdrop, hexValue_hexadecimal, Char.ofNat_toNat, List.tail_cons]

/-- The written form of a character is read as the character. -/
theorem readEscape?_escape (c : Char) (t : Text) :
    readEscape? (escape c ++ t) = some (c, t) := by
  rw [escape]
  split_ifs with hself hfeed hreturn htab hnull hvisible
  · rcases hself with rfl | rfl <;> rfl
  · rw [hfeed]
    rfl
  · rw [hreturn]
    rfl
  · rw [htab]
    rfl
  · rw [hnull]
    rfl
  · rw [not_or] at hself
    rw [List.singleton_append, readEscape?, if_neg hself.1, if_neg hself.2]
  · rw [List.append_assoc, List.append_assoc]
    exact readEscaped?_code c t

/-! ## Whole texts -/

/-- No two texts have the same characters in written form before the closing quote. -/
theorem escapes_injective (h : a.flatMap escape ++ ['"'] = b.flatMap escape ++ ['"']) :
    a = b := by
  induction a generalizing b with
  | nil =>
    cases b with
    | nil => rfl
    | cons d b =>
      -- the closing quote is no written form
      have hread := congrArg readEscape? h
      rw [List.flatMap_cons, List.append_assoc, readEscape?_escape] at hread
      cases hread
  | cons c a ih =>
    have hread := congrArg readEscape? h
    rw [List.flatMap_cons, List.append_assoc, readEscape?_escape] at hread
    cases b with
    | nil => cases hread
    | cons d b =>
      rw [List.flatMap_cons, List.append_assoc, readEscape?_escape] at hread
      obtain ⟨rfl, hrest⟩ := Prod.mk.inj (Option.some.inj hread)
      rw [ih hrest]

/-- Texts with the same quoted form are the same. -/
theorem quoted_injective (h : quoted a = quoted b) : a = b :=
  escapes_injective (List.cons.inj h).2

theorem newline_not_mem_escape (c : Char) : '\n' ∉ escape c := by
  rw [escape]
  split_ifs with hself hfeed hreturn htab hnull hvisible
  · rcases hself with rfl | rfl <;> decide
  · decide
  · decide
  · decide
  · decide
  · rw [List.mem_singleton]
    exact fun h => hfeed h.symm
  · have hdigits := not_mem_hexadecimal (c := '\n') (by decide) c.toNat
    simpa using hdigits

/-- A quoted text is on one line. -/
theorem newline_not_mem_quoted (t : Text) : '\n' ∉ quoted t := by
  have hcontent : '\n' ∉ t.flatMap escape := by
    rw [List.mem_flatMap]
    rintro ⟨c, -, hc⟩
    exact newline_not_mem_escape c hc
  simpa [quoted] using hcontent

end Lexicon.Text
