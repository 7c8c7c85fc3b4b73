import LiveSheet.Proofs.Number.Exact

namespace LiveSheet

section Rounding

variable {num den n : ℕ}

/-- A quotient rounds to the number that it is half a unit away from at most, and to an odd one
only if it is closer. -/
theorem roundHalfEven_eq (positive : 0 < den) (low : (n : ℚ) - 1 / 2 ≤ num / den)
    (high : (num : ℚ) / den ≤ n + 1 / 2)
    (odd : n % 2 = 1 → (n : ℚ) - 1 / 2 < num / den ∧ (num : ℚ) / den < n + 1 / 2) :
    roundHalfEven num den = n := by
  have hden : (0 : ℚ) < den := by exact_mod_cast positive
  have hlow : 2 * (n * den) ≤ 2 * num + den := by
    rw [le_div_iff₀ hden] at low
    have : 2 * ((n : ℚ) * den) ≤ 2 * num + den := by linarith
    exact_mod_cast this
  have hhigh : 2 * num ≤ 2 * (n * den) + den := by
    rw [div_le_iff₀ hden] at high
    have : 2 * (num : ℚ) ≤ 2 * (n * den) + den := by linarith
    exact_mod_cast this
  have hodd : n % 2 = 1 → 2 * (n * den) < 2 * num + den ∧ 2 * num < 2 * (n * den) + den := by
    intro h
    obtain ⟨hl, hh⟩ := odd h
    rw [lt_div_iff₀ hden] at hl
    rw [div_lt_iff₀ hden] at hh
    have hl' : 2 * ((n : ℚ) * den) < 2 * num + den := by linarith
    have hh' : 2 * (num : ℚ) < 2 * (n * den) + den := by linarith
    exact ⟨by exact_mod_cast hl', by exact_mod_cast hh'⟩
  -- the number is the quotient or one more
  have hdiv := Nat.div_add_mod num den
  have hmod := Nat.mod_lt num positive
  have hcases : n = num / den ∨ n = num / den + 1 := by
    have hge : num / den ≤ n := by
      by_contra hlt
      have := Nat.mul_le_mul_right den (show n + 1 ≤ num / den by omega)
      rw [Nat.add_mul, Nat.mul_comm (num / den)] at this
      omega
    have hle : n ≤ num / den + 1 := by
      by_contra hlt
      have := Nat.mul_le_mul_right den (show num / den + 2 ≤ n by omega)
      rw [Nat.add_mul, Nat.mul_comm (num / den)] at this
      omega
    omega
  unfold roundHalfEven
  dsimp only
  generalize num % den = r at hdiv hmod ⊢
  rcases hcases with rfl | rfl
  · rw [Nat.mul_comm] at hdiv
    split_ifs <;> omega
  · rw [Nat.mul_comm] at hdiv
    rw [Nat.add_mul] at hlow hhigh hodd
    split_ifs <;> omega

theorem scaleDown_pos (positive : 0 < den) (e : ℤ) : 0 < (scaleDown num den e).2 :=
  Nat.mul_pos positive (Nat.pow_pos (by decide))

theorem scaleDown_div (e : ℤ) :
    ((scaleDown num den e).1 : ℚ) / (scaleDown num den e).2 = num / den / 2 ^ e := by
  have hpow : ∀ k : ℕ, ((Nat.pow 2 k : ℕ) : ℚ) = 2 ^ k := fun k => Nat.cast_pow 2 k
  simp only [scaleDown, Nat.cast_mul, hpow, zpow_eq_div two_ne_zero e]
  field_simp

theorem scaleDown_lt_iff (positive : 0 < den) (e : ℤ) :
    (scaleDown num den e).1 < Nat.pow 2 53 * (scaleDown num den e).2 ↔
      (num : ℚ) / den < 2 ^ (e + 53) := by
  have hscaled : (0 : ℚ) < (scaleDown num den e).2 := by exact_mod_cast scaleDown_pos positive e
  have hunit : (0 : ℚ) < 2 ^ e := by positivity
  have hsum : (2 : ℚ) ^ (e + 53) = 2 ^ 53 * 2 ^ e := by
    rw [zpow_add₀ two_ne_zero, mul_comm]
    norm_num
  rw [hsum, ← div_lt_iff₀ hunit, ← scaleDown_div, div_lt_iff₀ hscaled]
  exact_mod_cast Iff.rfl

theorem log2_bounds (positive : 0 < n) :
    (2 : ℚ) ^ (n.log2 : ℤ) ≤ n ∧ (n : ℚ) < 2 ^ ((n.log2 : ℤ) + 1) := by
  rw [zpow_natCast, zpow_add_one₀ two_ne_zero, zpow_natCast, ← pow_succ]
  exact ⟨by exact_mod_cast Nat.log2_self_le (by omega), by exact_mod_cast Nat.lt_log2_self⟩

/-- The logarithms of its parts give that of a fraction up to one. -/
theorem log2_quotient_bounds (numerator : 0 < num) (denominator : 0 < den) :
    (2 : ℚ) ^ ((num.log2 : ℤ) - den.log2 - 1) ≤ num / den ∧
      (num : ℚ) / den < 2 ^ ((num.log2 : ℤ) - den.log2 + 1) := by
  have hden : (0 : ℚ) < den := by exact_mod_cast denominator
  constructor
  · rw [le_div_iff₀ hden]
    calc (2 : ℚ) ^ ((num.log2 : ℤ) - den.log2 - 1) * den
        ≤ 2 ^ ((num.log2 : ℤ) - den.log2 - 1) * 2 ^ ((den.log2 : ℤ) + 1) := by
          gcongr
          exact (log2_bounds denominator).2.le
      _ = 2 ^ (num.log2 : ℤ) := by
          rw [← zpow_add₀ two_ne_zero]
          congr 1
          ring
      _ ≤ num := (log2_bounds numerator).1
  · rw [div_lt_iff₀ hden]
    calc (num : ℚ) < 2 ^ ((num.log2 : ℤ) + 1) := (log2_bounds numerator).2
      _ = 2 ^ ((num.log2 : ℤ) - den.log2 + 1) * 2 ^ (den.log2 : ℤ) := by
          rw [← zpow_add₀ two_ne_zero]
          congr 1
          ring
      _ ≤ 2 ^ ((num.log2 : ℤ) - den.log2 + 1) * den := by
          gcongr
          exact (log2_bounds denominator).1

/-- The exponent that a fraction is rounded at: the mantissa is below the power of two that takes
more than 53 bits, and it takes all of them unless the exponent is the least one. -/
theorem mantissaExponent_spec (numerator : 0 < num) (denominator : 0 < den) :
    -1074 ≤ mantissaExponent num den ∧ (num : ℚ) / den < 2 ^ (mantissaExponent num den + 53) ∧
      (mantissaExponent num den ≠ -1074 →
        (2 : ℚ) ^ (mantissaExponent num den + 52) ≤ num / den) := by
  obtain ⟨hlow, hhigh⟩ := log2_quotient_bounds numerator denominator
  obtain ⟨exact, hexact, hfits, hfull⟩ : ∃ e : ℤ, mantissaExponent num den = max (-1074) e ∧
      (num : ℚ) / den < 2 ^ (e + 53) ∧ (2 : ℚ) ^ (e + 52) ≤ num / den := by
    simp only [mantissaExponent, scaleDown_lt_iff denominator, Binary.leastExponent]
    split
    next h =>
      refine ⟨_, rfl, h, ?_⟩
      rwa [show (num.log2 : ℤ) - den.log2 - 53 + 52 = num.log2 - den.log2 - 1 by ring]
    next h =>
      refine ⟨_, rfl, ?_, ?_⟩
      · rwa [show (num.log2 : ℤ) - den.log2 - 53 + 1 + 53 = num.log2 - den.log2 + 1 by ring]
      · rw [show (num.log2 : ℤ) - den.log2 - 53 + 1 + 52 = num.log2 - den.log2 - 53 + 53 by ring]
        exact not_lt.mp h
  rw [hexact]
  refine ⟨le_max_left _ _, hfits.trans_le ?_, fun h => ?_⟩
  · exact zpow_le_zpow_right₀ one_le_two (by omega)
  · rwa [max_eq_right (by omega)]

end Rounding

namespace Neighbourhood

/-- The mantissa and the exponent are those of a float that is not zero: the mantissa takes 53
bits unless the exponent is the least one. -/
structure Legal (v : Neighbourhood) : Prop where
  positive : 0 < v.mantissa
  fits : v.mantissa < 2 ^ 53
  least : -1074 ≤ v.exponent
  greatest : v.exponent ≤ 971
  full : v.exponent ≠ -1074 → 2 ^ 52 ≤ v.mantissa

/-- A quarter of the last place of the float. -/
def unit (v : Neighbourhood) : ℚ :=
  2 ^ (v.exponent - 2)

/-- The number is between the halves to the next floats, where a half goes to the even one. -/
def Reads (v : Neighbourhood) (q : ℚ) : Prop :=
  if v.mantissa % 2 = 0 then v.low * v.unit ≤ q ∧ q ≤ v.high * v.unit
  else v.low * v.unit < q ∧ q < v.high * v.unit

variable {v : Neighbourhood} {q : ℚ} {num den : ℕ}

theorem unit_pos : 0 < v.unit := by
  unfold unit
  positivity

theorem Reads.le (h : v.Reads q) : v.low * v.unit ≤ q ∧ q ≤ v.high * v.unit := by
  unfold Reads at h
  split at h
  · exact h
  · exact ⟨h.1.le, h.2.le⟩

theorem Reads.lt (h : v.Reads q) (odd : v.mantissa % 2 = 1) :
    v.low * v.unit < q ∧ q < v.high * v.unit := by
  rwa [Reads, if_neg (by omega)] at h

theorem low_of_full (h : v.mantissa = 2 ^ 52) (least : v.exponent ≠ -1074) :
    v.low = 4 * v.mantissa - 1 :=
  if_pos ⟨h, least⟩

theorem low_of_not_full (h : ¬(v.mantissa = 2 ^ 52 ∧ v.exponent ≠ -1074)) :
    v.low = 4 * v.mantissa - 2 :=
  if_neg h

theorem low_bounds (h : v.Legal) : 4 * v.mantissa ≤ v.low + 2 ∧ v.low < 4 * v.mantissa := by
  have hpositive := h.positive
  unfold low
  split <;> omega

theorem Reads.bounds (legal : v.Legal) (h : v.Reads q) :
    (2 : ℚ) ^ (-1075 : ℤ) ≤ q ∧ q < 2 ^ (1024 : ℤ) := by
  have hpositive := legal.positive
  have hfits := legal.fits
  have hlow : 2 ≤ v.low := by
    have := low_bounds legal
    omega
  have hhigh : v.high < 2 ^ 55 := by
    unfold high
    omega
  obtain ⟨hle, hge⟩ := h.le
  constructor
  · calc (2 : ℚ) ^ (-1075 : ℤ) = 2 ^ 1 * 2 ^ (-1076 : ℤ) := by
          rw [← zpow_natCast, ← zpow_add₀ two_ne_zero]
          norm_num
      _ ≤ v.low * v.unit := by
          refine mul_le_mul ?_ ?_ (by positivity) (by positivity)
          · exact_mod_cast hlow
          · exact zpow_le_zpow_right₀ one_le_two (by have := legal.least; omega)
      _ ≤ q := hle
  · calc q ≤ v.high * v.unit := hge
      _ < 2 ^ 55 * 2 ^ (969 : ℤ) := by
          refine mul_lt_mul ?_ ?_ v.unit_pos (by positivity)
          · exact_mod_cast hhigh
          · exact zpow_le_zpow_right₀ one_le_two (by have := legal.greatest; omega)
      _ = 2 ^ (1024 : ℤ) := by
          rw [← zpow_natCast, ← zpow_add₀ two_ne_zero]
          norm_num

theorem zpow_eq_unit (k : ℕ) : (2 : ℚ) ^ (v.exponent + k) = 2 ^ (k + 2) * v.unit := by
  rw [unit, ← zpow_natCast, ← zpow_add₀ two_ne_zero]
  congr 1
  push_cast
  ring

/-- What reads as a float is rounded at the exponent of that float, or one below it if the mantissa
is the least one: then it is rounded up. -/
theorem Reads.exponent_cases (legal : v.Legal) (numerator : 0 < num) (denominator : 0 < den)
    (h : v.Reads (num / den)) : mantissaExponent num den = v.exponent ∨
      mantissaExponent num den + 1 = v.exponent ∧ v.mantissa = 2 ^ 52 := by
  obtain ⟨hleast, hfits, hfull⟩ := mantissaExponent_spec numerator denominator
  generalize mantissaExponent num den = e at hleast hfits hfull ⊢
  have hunit := v.unit_pos
  have hmantissa := legal.fits
  obtain ⟨hlow, hhigh⟩ := h.le
  have hmonotone : ∀ {i j : ℤ}, i ≤ j → (2 : ℚ) ^ i ≤ 2 ^ j :=
    fun hij => zpow_le_zpow_right₀ one_le_two hij
  rcases lt_trichotomy e v.exponent with hlt | rfl | hgt
  · right
    have hbelow : ∀ k : ℕ, e + 53 ≤ v.exponent + k → v.low < 2 ^ (k + 2) := by
      intro k hk
      have := (hlow.trans_lt hfits).trans_le (hmonotone hk)
      rw [zpow_eq_unit, mul_lt_mul_iff_left₀ hunit] at this
      exact_mod_cast this
    have hfirst := hbelow 52 (by omega)
    have hlegal := legal.full (by have := legal.least; omega)
    have hbounds := low_bounds legal
    have hpower : v.mantissa = 2 ^ 52 := by
      by_contra hne
      rw [low_of_not_full (by tauto)] at hfirst
      omega
    refine ⟨?_, hpower⟩
    by_contra hne
    have hsecond := hbelow 51 (by omega)
    rw [low_of_full hpower (by omega)] at hsecond
    omega
  · exact .inl rfl
  · exfalso
    have habove := (hmonotone (show v.exponent + (53 : ℕ) ≤ e + 52 by push_cast; omega)).trans
      ((hfull (by have := legal.least; omega)).trans hhigh)
    rw [zpow_eq_unit, mul_le_mul_iff_left₀ hunit] at habove
    have : 2 ^ 55 ≤ v.high := by exact_mod_cast habove
    unfold high at this
    omega

theorem unit_eq : v.unit = 2 ^ v.exponent / 4 := by
  rw [unit, zpow_sub₀ two_ne_zero]
  norm_num

/-- In units of the last place, what reads as a float is half a unit away from its mantissa at
most, and closer if that is odd. -/
theorem Reads.mantissa (legal : v.Legal) (h : v.Reads q) :
    (v.mantissa : ℚ) - 1 / 2 ≤ q / 2 ^ v.exponent ∧
      q / 2 ^ v.exponent ≤ v.mantissa + 1 / 2 ∧
      (v.mantissa % 2 = 1 → (v.mantissa : ℚ) - 1 / 2 < q / 2 ^ v.exponent ∧
        q / 2 ^ v.exponent < v.mantissa + 1 / 2) := by
  have hpow : (0 : ℚ) < 2 ^ v.exponent := by positivity
  have hlow : 4 * (v.mantissa : ℚ) ≤ v.low + 2 := by exact_mod_cast (low_bounds legal).1
  have hhigh : (v.high : ℚ) = 4 * v.mantissa + 2 := by simp [high]
  have hscaled : (4 * (v.mantissa : ℚ) - 2) * v.unit ≤ v.low * v.unit := by
    have := v.unit_pos
    gcongr
    linarith
  have hle := h.le
  have hlt := h.lt
  rw [unit_eq] at hle hlt hscaled
  rw [hhigh] at hle hlt
  rw [le_div_iff₀ hpow, div_le_iff₀ hpow, lt_div_iff₀ hpow, div_lt_iff₀ hpow]
  refine ⟨by linarith [hle.1], by linarith [hle.2], fun odd => ?_⟩
  exact ⟨by linarith [(hlt odd).1], by linarith [(hlt odd).2]⟩

/-- A fraction that reads as a float has the bits of that float. -/
theorem Reads.nearestBits_eq (legal : v.Legal) (numerator : 0 < num) (denominator : 0 < den)
    (h : v.Reads (num / den)) :
    nearestBits num den = (v.exponent + 1074).toNat * 2 ^ 52 + v.mantissa := by
  have hfits := legal.fits
  have hleast := legal.least
  have hgreatest := legal.greatest
  have hround : ∀ e : ℤ, mantissaExponent num den = e → nearestBits num den =
      min ((e + 1074).toNat * 2 ^ 52 +
        roundHalfEven (scaleDown num den e).1 (scaleDown num den e).2) (2047 * 2 ^ 52) := by
    rintro e rfl
    simp [nearestBits, Binary.leastExponent]
  rcases h.exponent_cases legal numerator denominator with hexponent | ⟨hexponent, hpower⟩
  · obtain ⟨hlow, hhigh, hodd⟩ := h.mantissa legal
    rw [← scaleDown_div] at hlow hhigh hodd
    rw [hround _ hexponent, roundHalfEven_eq (scaleDown_pos denominator _) hlow hhigh hodd]
    omega
  · -- just below a power of two, the mantissa is rounded up to it and carries over
    obtain ⟨e, he⟩ : ∃ e, v.exponent = e + 1 := ⟨v.exponent - 1, by omega⟩
    have hmantissa : mantissaExponent num den = e := by omega
    have hpow : (0 : ℚ) < 2 ^ e := by positivity
    obtain ⟨hbound, hbelow, -⟩ := mantissaExponent_spec numerator denominator
    rw [hmantissa] at hbound hbelow
    have hlow : ((2 ^ 53 : ℕ) : ℚ) - 1 / 2 ≤ num / den / 2 ^ e := by
      have hle := h.le.1
      rw [low_of_full hpower (by omega), hpower, unit_eq, he, zpow_add_one₀ two_ne_zero] at hle
      rw [le_div_iff₀ hpow]
      norm_num at hle ⊢
      linarith
    have hhigh : (num : ℚ) / den / 2 ^ e ≤ (2 ^ 53 : ℕ) + 1 / 2 := by
      rw [zpow_add₀ two_ne_zero] at hbelow
      rw [div_le_iff₀ hpow]
      norm_num at hbelow ⊢
      linarith
    rw [← scaleDown_div] at hlow hhigh
    rw [hround _ hmantissa,
      roundHalfEven_eq (scaleDown_pos denominator _) hlow hhigh fun h => by norm_num at h]
    omega

end Neighbourhood

end LiveSheet
