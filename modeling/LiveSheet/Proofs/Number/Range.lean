import LiveSheet.Proofs.Number.Comparing

namespace LiveSheet

theorem Int64.bounds (k : Int64) : -2 ^ 63 ≤ k.toInt ∧ k.toInt ≤ 2 ^ 63 - 1 :=
  ⟨k.le_toInt, by have := k.toInt_lt; omega⟩

theorem value_least : exactValue? (floatOf Int64.minValue) = some (-2 ^ 63) := by
  have hbits : floatOf Int64.minValue = .ofBits 0xC3E0000000000000 := by decide +kernel
  have hvalue : exactValue? (.ofBits 0xC3E0000000000000) =
      some (((-(2 ^ 52 : ℕ) : ℤ) : ℚ) * 2 ^ (11 : ℤ)) := rfl
  rw [hbits, hvalue]
  norm_num

/-- The greatest integer is rounded up. -/
theorem value_greatest : exactValue? (floatOf Int64.maxValue) = some (2 ^ 63) := by
  have hbits : floatOf Int64.maxValue = .ofBits 0x43E0000000000000 := by decide +kernel
  have hvalue : exactValue? (.ofBits 0x43E0000000000000) =
      some ((((2 ^ 52 : ℕ) : ℤ) : ℚ) * 2 ^ (11 : ℤ)) := rfl
  rw [hbits, hvalue]
  norm_num

theorem within_iff {x : Float} {n : ℤ} (hx : exactValue? x = some (n : ℚ)) :
    (floatOf Int64.minValue ≤ x ∧ x ≤ floatOf Int64.maxValue) ↔ -2 ^ 63 ≤ n ∧ n ≤ 2 ^ 63 := by
  rw [float_le_iff_value value_least hx, float_le_iff_value hx value_greatest]
  exact_mod_cast Iff.rfl

/-- The range within which floats are converted goes up to the power of two past the greatest
integer, for which the greatest integer stands in. -/
theorem integerOf?_eq_some_iff {x : Float} {k : Int64} : integerOf? x = some k ↔
    exactValue? x = some (k.toInt : ℚ) ∨ exactValue? x = some (2 ^ 63) ∧ k = Int64.maxValue := by
  rw [integerOf?, Option.bind_eq_some_iff]
  constructor
  · rintro ⟨n, hn, h⟩
    rw [Binary.toInt?_eq_some_iff] at hn
    split at h
    next hwithin =>
      have hrange := (within_iff hn).mp hwithin
      obtain rfl := Option.some.inj h
      rcases eq_or_lt_of_le hrange.2 with rfl | hlt
      · exact .inr ⟨by rw [hn]; norm_num, rfl⟩
      · left
        rw [Int64.toInt_ofIntClamp hrange.1 (Int.le_sub_one_of_lt hlt), hn]
    next => cases h
  · rintro (h | ⟨h, rfl⟩)
    · obtain ⟨hlow, hhigh⟩ := Int64.bounds k
      refine ⟨k.toInt, Binary.toInt?_eq_some_iff.mpr h, ?_⟩
      rw [if_pos ((within_iff h).mpr ⟨hlow, by omega⟩), Int64.ofIntClamp_toInt]
    · have hinteger : exactValue? x = some ((2 ^ 63 : ℤ) : ℚ) := by rw [h]; norm_num
      refine ⟨2 ^ 63, Binary.toInt?_eq_some_iff.mpr hinteger, ?_⟩
      rw [if_pos ((within_iff hinteger).mpr (by norm_num))]
      rfl

theorem integerOf?_eq_none_iff {x : Float} : integerOf? x = none ↔
    ∀ n : ℤ, exactValue? x = some (n : ℚ) → n < -2 ^ 63 ∨ 2 ^ 63 < n := by
  rw [integerOf?, Option.bind_eq_none_iff]
  refine forall_congr' fun n => ?_
  rw [Binary.toInt?_eq_some_iff]
  refine imp_congr_right fun hn => ?_
  have hwithin := within_iff hn
  split
  next h =>
    obtain ⟨hlow, hhigh⟩ := hwithin.mp h
    simp only [reduceCtorEq, false_iff]
    omega
  next h =>
    rw [hwithin] at h
    simp only [true_iff]
    omega

namespace Value

/-- A float has an integer reading exactly if its value is an integer within the range of integers,
which it then is, and otherwise the reading fails. The one float past this range that has a reading
is two to the power of 63, which is read as the greatest integer. -/
theorem asInteger_float_iff (x : Float) :
    (∀ k, (Value.float x).asInteger = .ok k ↔ exactValue? x = some (k.toInt : ℚ) ∨
      exactValue? x = some (2 ^ 63) ∧ k = Int64.maxValue) ∧
    ∀ e, (Value.float x).asInteger = .error e ↔ e = ⟨(Value.float x).asText, .integer⟩ ∧
      ∀ n : ℤ, exactValue? x = some (n : ℚ) → n < -2 ^ 63 ∨ 2 ^ 63 < n := by
  constructor
  · intro k
    rw [← integerOf?_eq_some_iff, asInteger]
    cases integerOf? x <;> simp
  · intro e
    rw [← integerOf?_eq_none_iff, asInteger]
    cases integerOf? x <;> simp [eq_comm]

/-- Two to the power of 63 has an integer reading, which is not its value. -/
theorem asInteger_float_past_greatest : ¬∀ (x : Float) (k : Int64),
    (Value.float x).asInteger = .ok k ↔ exactValue? x = some (k.toInt : ℚ) := by
  intro h
  have hread := integerOf?_eq_some_iff.mpr (.inr ⟨value_greatest, rfl⟩)
  have hgreatest := (h _ Int64.maxValue).mp (by rw [asInteger, hread])
  have hmax : Int64.maxValue.toInt = 2 ^ 63 - 1 := rfl
  rw [value_greatest, Option.some.injEq, hmax] at hgreatest
  norm_num at hgreatest

end Value

end LiveSheet
