import Lexicon.Proofs.Rounding

/-!
# Where numbers become infinite

A quotient is out of range when no finite number is near enough, which is so from
half-way between the largest finite number and the next power of two.  The number at
half-way is `Binary64.limit`, and it is itself out of range, since its even neighbour is
the power of two (`isFinite_ofQuotient_iff`).

The scale at which a quotient is rounded tells most of this.  On a small scale the
magnitude stays below that of infinity whatever the rounding does, and on a large one
it reaches it.  Only on the scale of the largest finite numbers does the rounding
decide, and there it is a matter of one half (`roundQuotient_lt_iff`).
-/

namespace Lexicon.Binary64

/-- Half the distance between the largest finite numbers. -/
@[irreducible] def halfGap : Nat := Nat.pow 2 970

/-- The least absolute value that is out of range.  It is half a distance less than the
power of two behind the largest finite number. -/
def limit : Nat := (Nat.pow 2 54 - 1) * halfGap

/-! ## Bounds for rounded quotients -/

variable {n d k : Nat}

/-- A quotient rounds to less than an even number if it is below the half in front of
it. -/
theorem roundQuotient_lt_iff (hd : 0 < d) (hk : k % 2 = 0) :
    roundQuotient n d < k ↔ 2 * n + d < 2 * (k * d) := by
  have hn := Nat.div_add_mod n d
  have hr := Nat.mod_lt n hd
  rw [roundQuotient]
  generalize n / d = q at *
  generalize n % d = r at *
  rw [Nat.mul_comm] at hn
  rcases Nat.lt_or_ge (q + 1) k with hlt | hge
  · obtain ⟨j, rfl⟩ := Nat.exists_eq_add_of_lt hlt
    simp only [Nat.add_mul] at hn ⊢
    generalize q * d = a at *
    generalize j * d = b at *
    split
    · omega
    · split <;> omega
  · rcases Nat.lt_or_ge q k with hq | hq
    · obtain rfl : k = q + 1 := by omega
      rw [Nat.add_mul]
      generalize q * d = a at *
      split
      · omega
      · split <;> omega
    · obtain ⟨j, rfl⟩ := Nat.exists_eq_add_of_le hq
      rw [Nat.add_mul] at hn
      generalize k * d = a at *
      generalize j * d = b at *
      split
      · omega
      · split <;> omega

theorem roundQuotient_le_succ (n d : Nat) : roundQuotient n d ≤ n / d + 1 := by
  rw [roundQuotient]
  split
  · omega
  · split <;> omega

theorem le_roundQuotient (n d : Nat) : n / d ≤ roundQuotient n d := by
  rw [roundQuotient]
  split
  · omega
  · split <;> omega

/-! ## The three kinds of scales -/

theorem two_pow_add (a b : Nat) : Nat.pow 2 (a + b) = Nat.pow 2 a * Nat.pow 2 b :=
  Nat.pow_add 2 a b

theorem two_pow_succ (a : Nat) : Nat.pow 2 (a + 1) = Nat.pow 2 a * 2 := rfl

/-- On its scale a quotient is below twice the size of a block. -/
theorem lt_of_scale {scale : Nat} (hd : 0 < d) (hscale : (n / d).log2 - 52 = scale) :
    n < 2 * block * (d * Nat.pow 2 scale) := by
  have hlog : n / d < Nat.pow 2 ((n / d).log2 + 1) := Nat.lt_log2_self
  have hpow : Nat.pow 2 ((n / d).log2 + 1) ≤ Nat.pow 2 (scale + 53) :=
    Nat.pow_le_pow_right (by decide) (by omega)
  have hn : n < Nat.pow 2 (scale + 53) * d :=
    (Nat.div_lt_iff_lt_mul hd).1 (Nat.lt_of_lt_of_le hlog hpow)
  have hblock : Nat.pow 2 (scale + 53) = 2 * block * Nat.pow 2 scale := by
    rw [two_pow_add, Nat.mul_comm]
    rfl
  rw [hblock, Nat.mul_assoc, Nat.mul_comm _ d] at hn
  exact hn

/-- On a scale that is not the least one, a quotient is at least the size of a block. -/
theorem le_of_scale {scale : Nat} (hscale : (n / d).log2 - 52 = scale + 1) :
    block * (d * Nat.pow 2 (scale + 1)) ≤ n := by
  have hne : n / d ≠ 0 := by
    intro hzero
    rw [hzero] at hscale
    simp at hscale
  have hlog : Nat.pow 2 (n / d).log2 ≤ n / d := Nat.log2_self_le hne
  have hexp : (n / d).log2 = 52 + (scale + 1) := by omega
  have hblock : Nat.pow 2 (52 + (scale + 1)) = block * Nat.pow 2 (scale + 1) :=
    two_pow_add 52 (scale + 1)
  rw [hexp, hblock] at hlog
  have hn := Nat.mul_le_mul_right d hlog
  have hdiv := Nat.div_mul_le_self n d
  rw [Nat.mul_assoc, Nat.mul_comm _ d] at hn
  exact Nat.le_trans hn hdiv

theorem even_two_mul_block : 2 * block % 2 = 0 := Nat.mul_mod_right 2 block

/-- What decides whether a magnitude is below that of infinity, in a format in which the
last scale with finite numbers is `e + 1`. -/
theorem scaled_lt_iff (hd : 0 < d) (e : Nat) :
    ((n / d).log2 - 52) * block +
        roundQuotient n (d * Nat.pow 2 ((n / d).log2 - 52)) < (e + 3) * block ↔
      2 * n + d * Nat.pow 2 (e + 1) < 2 * (2 * block * (d * Nat.pow 2 (e + 1))) := by
  have hblock := block_pos
  generalize hscale : (n / d).log2 - 52 = scale
  have hpos : ∀ s, 0 < d * Nat.pow 2 s := fun s => Nat.mul_pos hd (Nat.pow_pos (by decide))
  rcases Nat.lt_trichotomy scale (e + 1) with hsmall | rfl | hlarge
  · -- neither the scale nor the rounding reaches infinity
    have hlt := lt_of_scale hd hscale
    have hround : roundQuotient n (d * Nat.pow 2 scale) ≤ 2 * block := by
      have hdiv : n / (d * Nat.pow 2 scale) < 2 * block :=
        (Nat.div_lt_iff_lt_mul (hpos scale)).2 hlt
      have hsucc := roundQuotient_le_succ n (d * Nat.pow 2 scale)
      omega
    have hmul : scale * block ≤ e * block := Nat.mul_le_mul_right block (by omega)
    have hpow : d * Nat.pow 2 scale ≤ d * Nat.pow 2 e :=
      Nat.mul_le_mul_left d (Nat.pow_le_pow_right (by decide) (by omega))
    have hdouble : d * Nat.pow 2 (e + 1) = 2 * (d * Nat.pow 2 e) := by
      rw [two_pow_succ, ← Nat.mul_assoc, Nat.mul_comm]
    have hn : n < 2 * block * (d * Nat.pow 2 e) :=
      Nat.lt_of_lt_of_le hlt (Nat.mul_le_mul_left _ hpow)
    have hone : d * Nat.pow 2 e ≤ block * (d * Nat.pow 2 e) := Nat.le_mul_of_pos_left _ hblock
    have he := hpos e
    rw [hdouble]
    simp only [Nat.mul_assoc, Nat.add_mul, Nat.mul_left_comm block 2] at hn ⊢
    generalize block * (d * Nat.pow 2 e) = a at *
    omega
  · -- the rounding decides
    rw [← roundQuotient_lt_iff (hpos (e + 1)) even_two_mul_block]
    simp only [Nat.add_mul]
    omega
  · -- the scale reaches infinity by itself
    obtain ⟨j, rfl⟩ := Nat.exists_eq_add_of_lt hlarge
    have hle := le_of_scale hscale
    have hround : block ≤ roundQuotient n (d * Nat.pow 2 (e + 1 + j + 1)) := by
      have hdiv : block ≤ n / (d * Nat.pow 2 (e + 1 + j + 1)) :=
        (Nat.le_div_iff_mul_le (hpos _)).2 hle
      exact Nat.le_trans hdiv (le_roundQuotient n _)
    have hpow : d * Nat.pow 2 (e + 1) * 2 ≤ d * Nat.pow 2 (e + 1 + j + 1) := by
      rw [Nat.mul_assoc]
      refine Nat.mul_le_mul_left d ?_
      rw [← two_pow_succ]
      exact Nat.pow_le_pow_right (by decide) (by omega)
    have hn : block * (d * Nat.pow 2 (e + 1) * 2) ≤ n :=
      Nat.le_trans (Nat.mul_le_mul_left block hpow) hle
    rw [← Nat.mul_assoc] at hn
    simp only [Nat.mul_assoc 2, Nat.add_mul] at hn ⊢
    generalize block * (d * Nat.pow 2 (e + 1)) = a at *
    omega

/-! ## The limit -/

theorem unity_pos : 0 < unity := by decide +kernel

theorem halfGap_mul_unity {k : Nat} (hk : k = 2044) : halfGap * unity = Nat.pow 2 k := by
  subst hk
  decide +kernel

/-- A quotient becomes a finite number if it is below the limit. -/
theorem isFinite_ofQuotient_iff (s : Bool) (n : Nat) (hd : 0 < d) :
    (ofQuotient s n d).isFinite = true ↔ n < limit * d := by
  obtain ⟨e, he⟩ : ∃ e : Nat, e = 2044 := ⟨2044, rfl⟩
  have hpow : d * Nat.pow 2 (e + 1) = 2 * (d * (halfGap * unity)) := by
    rw [two_pow_succ, ← halfGap_mul_unity he, ← Nat.mul_assoc, Nat.mul_comm]
  have hmax : infiniteMagnitude = (e + 3) * block := by
    rw [he]
    rfl
  have hscaled := scaled_lt_iff (n := n * unity) hd e
  rw [hpow, ← hmax] at hscaled
  have hnearest : nearest (n * unity) d < infiniteMagnitude ↔
      2 * (n * unity) + 2 * (d * (halfGap * unity)) <
        2 * (2 * block * (2 * (d * (halfGap * unity)))) := by
    rw [← hscaled, nearest, Nat.min_def]
    split <;> omega
  have hlimit : limit * d * unity = (Nat.pow 2 54 - 1) * (d * (halfGap * unity)) := by
    rw [limit, Nat.mul_assoc, Nat.mul_assoc, Nat.mul_left_comm halfGap]
  have hblock : block = 4503599627370496 := rfl
  have hfactor : Nat.pow 2 54 - 1 = 18014398509481983 := rfl
  rw [← Nat.mul_lt_mul_right (b := n) unity_pos, hlimit, isFinite, decide_eq_true_eq,
    magnitude_ofQuotient, hnearest, hblock, hfactor]
  omega

end Lexicon.Binary64
