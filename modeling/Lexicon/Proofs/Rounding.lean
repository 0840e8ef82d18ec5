import Lexicon.Decimal.Shortest

/-!
# Rounding to the nearest binary number

`Binary64.nearest n d` depends on the quotient of `n` and `d` alone
(`nearest_congr`), and it gives back every finite magnitude from its own value
(`nearest_units`).  The second statement is where the layout of the format comes
in.  A value in a block of coarseness `2 ^ q` is a number of 53 bits times
`2 ^ q`, so the scale is `q` and nothing is rounded.

The search for the shortest decimal tests its candidates by rounding, and falls
back to the exact value.  So whatever it returns rounds to the number it was
asked for (`readsBack_scaled`).
-/

namespace Lexicon

namespace Binary64

/-! ## Quotients -/

theorem roundQuotient_mul_right (n d : Nat) {k : Nat} (hk : 0 < k) :
    roundQuotient (n * k) (d * k) = roundQuotient n d := by
  have hlt : ∀ a b : Nat, 2 * (a * k) < b * k ↔ 2 * a < b := by
    intro a b
    rw [← Nat.mul_assoc]
    exact Nat.mul_lt_mul_right hk
  have hgt : ∀ a b : Nat, a * k < 2 * (b * k) ↔ a < 2 * b := by
    intro a b
    rw [← Nat.mul_assoc]
    exact Nat.mul_lt_mul_right hk
  simp only [roundQuotient, Nat.mul_mod_mul_right, Nat.mul_div_mul_right n d hk, hlt, hgt]

theorem nearest_mul_right (n d : Nat) {k : Nat} (hk : 0 < k) :
    nearest (n * k) (d * k) = nearest n d := by
  simp only [nearest, Nat.mul_div_mul_right n d hk]
  rw [Nat.mul_right_comm d k, roundQuotient_mul_right _ _ hk]

/-- Equal quotients have the same nearest number. -/
theorem nearest_congr {n d n' d' : Nat} (hd : 0 < d) (hd' : 0 < d') (h : n * d' = n' * d) :
    nearest n d = nearest n' d' := by
  rw [← nearest_mul_right n d hd', h, Nat.mul_comm d d', nearest_mul_right n' d' hd]

theorem roundQuotient_mul_self (n : Nat) {d : Nat} (hd : 0 < d) :
    roundQuotient (n * d) d = n := by
  rw [roundQuotient, Nat.mul_mod_left, if_pos (by omega), Nat.mul_div_cancel n hd]

/-! ## Values of the format -/

theorem block_pos : 0 < block := by decide

theorem nearest_units_of_lt {m : Nat} (h : m < block) : nearest m 1 = m := by
  have hlog : m.log2 - 52 = 0 := by
    by_cases hm : m = 0
    · rw [hm, Nat.log2_zero]
    · have hlt : m.log2 < 52 := (Nat.log2_lt hm).2 h
      omega
  have hround : roundQuotient m 1 = m := by
    have h := roundQuotient_mul_self m Nat.one_pos
    rwa [Nat.mul_one] at h
  have hle : m ≤ infiniteMagnitude := by
    rw [infiniteMagnitude]
    omega
  rw [nearest, Nat.div_one, hlog]
  show min infiniteMagnitude (0 * block + roundQuotient m (1 * 1)) = m
  rw [hround, Nat.zero_mul, Nat.zero_add, Nat.min_eq_right hle]

/-- A number of 53 bits in front of `q` zeros has `53 + q` bits. -/
theorem log2_mul_pow {a : Nat} (hlow : block ≤ a) (hhigh : a < 2 * block) (q : Nat) :
    (a * Nat.pow 2 q).log2 = 52 + q := by
  have hpos : 0 < Nat.pow 2 q := Nat.two_pow_pos q
  have hne : a * Nat.pow 2 q ≠ 0 :=
    Nat.ne_of_gt (Nat.mul_pos (Nat.lt_of_lt_of_le block_pos hlow) hpos)
  refine (Nat.log2_eq_iff hne).2 ⟨?_, ?_⟩
  · rw [Nat.pow_add]
    exact Nat.mul_le_mul_right _ hlow
  · have hsplit : 52 + q + 1 = 53 + q := by omega
    rw [hsplit, Nat.pow_add]
    exact Nat.mul_lt_mul_of_pos_right hhigh hpos

theorem nearest_units_of_le {m : Nat} (hlow : block ≤ m) (hhigh : m < infiniteMagnitude) :
    nearest (units m) 1 = m := by
  have hdiv := Nat.div_add_mod m block
  have hmod := Nat.mod_lt m block_pos
  have hquot : 1 ≤ m / block := (Nat.one_le_div_iff block_pos).2 hlow
  obtain ⟨q, hq⟩ : ∃ q, m / block = q + 1 := ⟨m / block - 1, by omega⟩
  have hunits : units m = (block + m % block) * Nat.pow 2 q := by
    rw [units, if_neg (by omega), hq, Nat.add_sub_cancel]
  have hscale : (units m).log2 - 52 = q := by
    rw [hunits, log2_mul_pow (by omega) (by omega)]
    omega
  have hround : roundQuotient (units m) (1 * Nat.pow 2 q) = block + m % block := by
    rw [Nat.one_mul, hunits]
    exact roundQuotient_mul_self _ (Nat.two_pow_pos q)
  rw [nearest, Nat.div_one, hscale]
  show min infiniteMagnitude (q * block + roundQuotient (units m) (1 * Nat.pow 2 q)) = m
  rw [hround, Nat.min_eq_right] <;> rw [hq, Nat.mul_comm, Nat.succ_mul] at hdiv <;> omega

/-- A finite magnitude is the nearest to its own value. -/
theorem nearest_units {m : Nat} (h : m < infiniteMagnitude) : nearest (units m) 1 = m := by
  by_cases hlow : m < block
  · rw [units, if_pos hlow, nearest_units_of_lt hlow]
  · exact nearest_units_of_le (Nat.le_of_not_lt hlow) h

/-- The same for the value on a finer scale. -/
theorem nearest_units_mul {m k : Nat} (h : m < infiniteMagnitude) (hk : 0 < k) :
    nearest (units m * k * 1) k = m := by
  have hmul := nearest_mul_right (units m) 1 hk
  rw [Nat.one_mul] at hmul
  rw [Nat.mul_one, hmul, nearest_units h]

end Binary64

/-! ## What the shortest decimal reads back as -/

namespace Decimal

open Binary64

theorem fineness_pos : 0 < fineness := by decide +kernel

theorem readsBack_exact {m : Nat} (h : m < infiniteMagnitude) :
    readsBack m (exact m) 0 = true :=
  decide_eq_true (nearest_units_mul h fineness_pos)

/-- The neighbour that is chosen passes the test. -/
theorem reads_of_choose {tie : Tie} {reads : Nat → Bool} {grid low twice c : Nat}
    (h : choose tie reads grid low twice = some c) : reads c = true := by
  unfold choose at h
  split at h
  · cases h
  · rename_i hlow _
    exact Option.some.inj h ▸ hlow
  · rename_i _ hhigh
    exact Option.some.inj h ▸ hhigh
  · rename_i hlow hhigh
    split at h
    · exact Option.some.inj h ▸ hlow
    · split at h
      · exact Option.some.inj h ▸ hhigh
      · cases tie with
        | away => exact Option.some.inj h ▸ hhigh
        | even =>
          obtain rfl := Option.some.inj h
          rcases Nat.mod_two_eq_zero_or_one low with heven | hodd
          · rwa [heven, Nat.add_zero]
          · rwa [hodd]

theorem candidate?_of_search {length c shift : Nat} {candidate? : Nat → Option Nat}
    (h : search length candidate? = some (c, shift)) : candidate? shift = some c := by
  obtain ⟨n, -, hn⟩ := List.exists_of_findSome?_eq_some h
  obtain ⟨c', hcandidate, heq⟩ := Option.map_eq_some_iff.1 hn
  obtain ⟨rfl, rfl⟩ := Prod.mk.inj heq
  exact hcandidate

theorem readsBack_of_candidate? {tie : Tie} {m c shift : Nat}
    (h : candidate? tie m shift = some c) : readsBack m c shift = true := by
  unfold candidate? at h
  exact @reads_of_choose tie (fun n => readsBack m n shift) _ _ _ _ h

/-- The coefficient of the shortest decimal reads back as the magnitude. -/
theorem readsBack_scaled (tie : Tie) {m : Nat} (h : m < infiniteMagnitude) :
    readsBack m (scaled tie m).1 (scaled tie m).2 = true := by
  unfold scaled
  cases hfound : search (Nat.toDigits 10 (exact m)).length (candidate? tie m) with
  | some found => exact readsBack_of_candidate? (candidate?_of_search hfound)
  | none => exact readsBack_exact h

end Decimal

end Lexicon
