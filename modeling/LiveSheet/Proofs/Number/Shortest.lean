import LiveSheet.Proofs.Number.Nearest

namespace LiveSheet

namespace Neighbourhood

variable {v : Neighbourhood} {digits k : ℕ} {place : ℤ} {q : ℚ}

theorem step_pos (v : Neighbourhood) (place : ℤ) : 0 < v.step place :=
  Nat.mul_pos (Nat.pow_pos (by decide)) (Nat.pow_pos (by decide))

/-- Steps and quarters are counted in one unit. -/
theorem exists_scale (v : Neighbourhood) (place : ℤ) : ∃ scale : ℚ, 0 < scale ∧
    (v.step place : ℚ) = 10 ^ place * scale ∧ (v.quarter place : ℚ) = v.unit * scale := by
  have hpow : ∀ b k : ℕ, ((Nat.pow b k : ℕ) : ℚ) = (b : ℚ) ^ k := fun b k => Nat.cast_pow b k
  have hneg : -(v.exponent - 2) = 2 - v.exponent := by ring
  refine ⟨10 ^ (-place).toNat * 2 ^ (2 - v.exponent).toNat, by positivity, ?_, ?_⟩
  · rw [zpow_eq_div (by norm_num : (10 : ℚ) ≠ 0)]
    simp only [step, Nat.cast_mul, hpow, Nat.cast_ofNat]
    field_simp
  · rw [unit, zpow_eq_div two_ne_zero, hneg]
    simp only [quarter, Nat.cast_mul, hpow, Nat.cast_ofNat]
    field_simp

theorem quarter_le_step_iff (v : Neighbourhood) (k digits : ℕ) (place : ℤ) :
    k * v.quarter place ≤ digits * v.step place ↔ (k : ℚ) * v.unit ≤ digits * 10 ^ place := by
  obtain ⟨scale, hscale, hstep, hquarter⟩ := v.exists_scale place
  rw [← mul_le_mul_iff_left₀ hscale, mul_assoc, mul_assoc, ← hstep, ← hquarter]
  exact_mod_cast Iff.rfl

theorem step_le_quarter_iff (v : Neighbourhood) (k digits : ℕ) (place : ℤ) :
    digits * v.step place ≤ k * v.quarter place ↔ (digits : ℚ) * 10 ^ place ≤ k * v.unit := by
  obtain ⟨scale, hscale, hstep, hquarter⟩ := v.exists_scale place
  rw [← mul_le_mul_iff_left₀ hscale, mul_assoc, mul_assoc, ← hstep, ← hquarter]
  exact_mod_cast Iff.rfl

/-- The comparison of natural numbers is that of the numbers themselves. -/
theorem has_iff : v.has digits place = true ↔ v.Reads (digits * 10 ^ place) := by
  have hlow := quarter_le_step_iff v v.low digits place
  have hhigh := step_le_quarter_iff v v.high digits place
  have hlow' := step_le_quarter_iff v v.low digits place
  have hhigh' := quarter_le_step_iff v v.high digits place
  unfold has Reads
  split
  · simp [hlow, hhigh]
  · simp [← not_le, hlow', hhigh']

/-- The float itself. -/
def value (v : Neighbourhood) : ℚ :=
  v.mantissa * 2 ^ v.exponent

theorem value_eq : v.value = (4 * v.mantissa : ℕ) * v.unit := by
  rw [value, unit_eq]
  push_cast
  ring

theorem value_bounds (legal : v.Legal) : v.low * v.unit < v.value ∧ v.value < v.high * v.unit := by
  have hunit := v.unit_pos
  rw [value_eq]
  constructor
  · gcongr
    exact (low_bounds legal).2
  · gcongr
    simp [high]

theorem reads_value (legal : v.Legal) : v.Reads v.value := by
  obtain ⟨hlow, hhigh⟩ := value_bounds legal
  unfold Reads
  split
  · exact ⟨hlow.le, hhigh.le⟩
  · exact ⟨hlow, hhigh⟩

/-- With a number, all numbers between it and the float read as the float. -/
theorem Reads.between (legal : v.Legal) (h : v.Reads q) {r : ℚ}
    (between : q ≤ r ∧ r ≤ v.value ∨ v.value ≤ r ∧ r ≤ q) : v.Reads r := by
  obtain ⟨hlow, hhigh⟩ := value_bounds legal
  unfold Reads at h ⊢
  split
  next even =>
    rw [if_pos even] at h
    rcases between with ⟨hq, hr⟩ | ⟨hr, hq⟩
    · exact ⟨h.1.trans hq, hr.trans hhigh.le⟩
    · exact ⟨hlow.le.trans hr, hq.trans h.2⟩
  next odd =>
    rw [if_neg odd] at h
    rcases between with ⟨hq, hr⟩ | ⟨hr, hq⟩
    · exact ⟨h.1.trans_le hq, hr.trans_lt hhigh⟩
    · exact ⟨hlow.trans_le hr, hq.trans_lt h.2⟩

/-- The float lies between two neighbours on each grid. -/
theorem floor_le_value : (v.floor place : ℚ) * 10 ^ place ≤ v.value := by
  rw [value_eq, ← step_le_quarter_iff]
  exact Nat.div_mul_le_self _ _

theorem value_lt_floor_succ : v.value < (v.floor place + 1 : ℕ) * 10 ^ place := by
  rw [value_eq, ← not_le, ← step_le_quarter_iff, not_le]
  have := Nat.lt_div_mul_add (v.step_pos place) (a := v.centre place)
  rw [Nat.add_mul, Nat.one_mul]
  exact this

/-- A number on the grid reads as the float if one of the neighbours does. -/
theorem onGrid?_eq_none_iff (legal : v.Legal) :
    v.onGrid? place = none ↔ ∀ digits : ℕ, ¬v.Reads (digits * 10 ^ place) := by
  have hnone : v.onGrid? place = none ↔
      v.has (v.floor place) place ≠ true ∧ v.has (v.floor place + 1) place ≠ true := by
    unfold onGrid?
    split <;> simp_all
  rw [hnone, ne_eq, ne_eq, has_iff, has_iff]
  constructor
  · rintro ⟨hfloor, hsucc⟩ digits h
    have hpow : (0 : ℚ) < 10 ^ place := by positivity
    rcases Nat.lt_or_ge (v.floor place) digits with hlt | hge
    · refine hsucc (h.between legal (.inr ⟨value_lt_floor_succ.le, ?_⟩))
      gcongr
      exact hlt
    · refine hfloor (h.between legal (.inl ⟨?_, floor_le_value⟩))
      gcongr
  · exact fun h => ⟨h _, h _⟩

theorem reads_of_onGrid? (h : v.onGrid? place = some digits) : v.Reads (digits * 10 ^ place) := by
  rw [← has_iff]
  unfold onGrid? at h
  split at h
  next hfloor hsucc =>
    obtain rfl := Option.some.inj h
    unfold nearer
    split
    · exact hfloor
    · exact hsucc
  next hfloor _ =>
    obtain rfl := Option.some.inj h
    exact hfloor
  next _ hsucc =>
    obtain rfl := Option.some.inj h
    exact hsucc
  next => cases h

/-- On a grid as fine as the last place of the float, the lower neighbour is the float itself. -/
theorem floor_eq_value (fine : place ≤ min 0 v.exponent) :
    (v.floor place : ℚ) * 10 ^ place = v.value := by
  have hdvd : v.step place ∣ v.centre place := by
    have hten : 2 ^ (-place).toNat ∣ 10 ^ (-place).toNat := pow_dvd_pow_of_dvd (by decide) _
    have hpow : 2 ^ (2 - v.exponent).toNat ∣ 2 ^ 2 * 2 ^ (-place).toNat := by
      rw [← pow_add]
      exact pow_dvd_pow 2 (by omega)
    have hstep : v.step place = 2 ^ (2 - v.exponent).toNat := by
      rw [step, show place.toNat = 0 by omega]
      exact Nat.one_mul _
    have hcentre : v.centre place =
        2 ^ 2 * 10 ^ (-place).toNat * (v.mantissa * 2 ^ (v.exponent - 2).toNat) := by
      simp only [centre, quarter, Nat.pow_eq]
      ring
    rw [hstep, hcentre]
    exact (hpow.trans (Nat.mul_dvd_mul_left _ hten)).mul_right _
  apply le_antisymm floor_le_value
  rw [value_eq, ← quarter_le_step_iff, floor, Nat.div_mul_cancel hdvd]
  exact le_rfl

/-- The search ends with a number that reads as the float, on a grid that none of the coarser ones
has a number on. -/
theorem search_spec (legal : v.Legal) (steps : ℕ) (place : ℤ)
    (fine : place - steps ≤ min 0 v.exponent) :
    v.Reads ((v.search steps place).1 * 10 ^ (v.search steps place).2) ∧
      ∀ p, (v.search steps place).2 < p → p ≤ place → ∀ d : ℕ, ¬v.Reads (d * 10 ^ p) := by
  induction steps generalizing place with
  | zero =>
    simp only [search]
    refine ⟨?_, fun p h hle => absurd hle (by omega)⟩
    rw [floor_eq_value (by omega)]
    exact reads_value legal
  | succ steps ih =>
    cases hgrid : v.onGrid? place with
    | some digits =>
      simp only [search, hgrid]
      exact ⟨reads_of_onGrid? hgrid, fun p h hle => absurd hle (by omega)⟩
    | none =>
      simp only [search, hgrid]
      obtain ⟨hreads, hcoarser⟩ := ih (place - 1) (by omega)
      refine ⟨hreads, fun p h hle => ?_⟩
      rcases Int.lt_or_eq_of_le hle with hlt | rfl
      · exact hcoarser p h (by omega)
      · exact (onGrid?_eq_none_iff legal).mp hgrid

theorem shortest_reads (legal : v.Legal) :
    v.Reads (v.shortest.1 * 10 ^ v.shortest.2) :=
  (search_spec legal _ _ (by omega)).1

section Whole

variable {n : ℕ}

/-- A whole float is read from no other whole number, unless its last place is above the ones. -/
theorem Reads.eq_of_whole (legal : v.Legal) (h : v.Reads k) (whole : v.value = n)
    (fraction : v.exponent ≤ 0) : k = n := by
  have hpow : (0 : ℚ) < 2 ^ v.exponent := by positivity
  have hone : (2 : ℚ) ^ v.exponent ≤ 2 ^ (0 : ℤ) := zpow_le_zpow_right₀ one_le_two fraction
  rw [zpow_zero] at hone
  obtain ⟨hlow, hhigh, -⟩ := h.mantissa legal
  rw [le_div_iff₀ hpow] at hlow
  rw [div_le_iff₀ hpow] at hhigh
  rw [value] at whole
  have hbelow : (k : ℚ) < n + 1 := by linarith
  have habove : (n : ℚ) < k + 1 := by linarith
  have : k < n + 1 := by exact_mod_cast hbelow
  have : n < k + 1 := by exact_mod_cast habove
  omega

/-- Then the fewest digits that read as it are its own, but for zeros at the end. -/
theorem shortest_of_whole (legal : v.Legal) (whole : v.value = n) (fraction : v.exponent ≤ 0) :
    0 ≤ v.shortest.2 ∧ v.shortest.1 * 10 ^ v.shortest.2.toNat = n := by
  have hreads := shortest_reads legal
  have htop : 0 ≤ (v.mantissa.log2 + v.exponent) * 30103 / 100000 + 2 := by
    have hone : (1 : ℚ) ≤ v.value := by
      have hpositive : 0 < v.value := by
        have := legal.positive
        unfold value
        positivity
      rw [whole] at hpositive ⊢
      exact_mod_cast hpositive
    have hlog : v.value < 2 ^ ((v.mantissa.log2 : ℤ) + 1 + v.exponent) := by
      rw [value, zpow_add₀ two_ne_zero]
      gcongr
      exact_mod_cast Nat.lt_log2_self
    have := (one_lt_zpow_iff_right₀ one_lt_two).mp (hone.trans_lt hlog)
    omega
  have hplace : 0 ≤ v.shortest.2 := by
    by_contra hneg
    have hcoarser := (search_spec legal _ _ (by omega)).2 0 (not_le.mp hneg) htop n
    rw [zpow_zero, mul_one, ← whole] at hcoarser
    exact hcoarser (reads_value legal)
  refine ⟨hplace, ?_⟩
  obtain ⟨p, hp⟩ := Int.eq_ofNat_of_zero_le hplace
  rw [hp, zpow_natCast] at hreads
  rw [hp]
  refine Reads.eq_of_whole legal ?_ whole fraction
  exact_mod_cast hreads

theorem exponent_le_of_small (legal : v.Legal) (whole : v.value = n) (small : n < 10 ^ 15) :
    v.exponent ≤ 0 := by
  by_contra hpositive
  have hfull : 2 ^ 52 ≤ v.mantissa := legal.full (by omega)
  have hlarge : ((2 ^ 52 : ℕ) : ℚ) ≤ n :=
    calc ((2 ^ 52 : ℕ) : ℚ) ≤ v.mantissa * 1 := by
          rw [mul_one]
          exact_mod_cast hfull
      _ ≤ v.mantissa * 2 ^ v.exponent := by
          gcongr
          exact one_le_zpow₀ one_le_two (by omega)
      _ = n := whole
  have : 2 ^ 52 ≤ n := by exact_mod_cast hlarge
  omega

end Whole

end Neighbourhood

end LiveSheet
