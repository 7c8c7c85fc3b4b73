import LiveSheet.Proofs.Number.Order

namespace LiveSheet

open Float.Model (Format UnpackedFloat)
open Float.Model.UnpackedFloat (Sign pack unpack pack_unpack unpack_packedNaN isNaNBits
  packComponents unpackExponent unpackMantissa unpackExponent_packComponents
  unpackMantissa_packComponents unpackSign_packComponents)

/-! Floats compare as the numbers that they stand for. -/

/-- The number in a place that is not an infinite one. -/
def placeValue (p : ℤ ×ₗ ℤ ×ₗ ℤ) : ℚ :=
  ((ofLex (ofLex p).2).2 : ℤ) * 2 ^ ((ofLex p).1 * (ofLex (ofLex p).2).1)

/-- What mantissas and exponents a float has. -/
structure Normal (m : ℕ) (e : ℤ) : Prop where
  fits : m < 2 ^ 53
  least : -1074 ≤ e
  full : e ≠ -1074 → 2 ^ 52 ≤ m

variable {x y : Float} {p q : ℚ}

theorem normal_of_unpack {s : Sign} {m : ℕ} {e : ℤ} {hm : 0 < m}
    (h : x.toModel.unpack = .finite s m e hm) : Normal m e := by
  have hbinary : Binary.ofFloat x = .finite (s == .negative) m e := by
    rw [Binary.ofFloat_eq, h, Binary.ofUnpacked]
  obtain ⟨-, hfits, hleast, -, hfull⟩ := Binary.toBits_of_finite hbinary
  exact ⟨hfits, hleast, hfull⟩

/-- A number with the greater exponent is the greater one, whatever the mantissas are. -/
theorem scaled_lt {m n : ℕ} {e f : ℤ} (hm : Normal m e) (hn : Normal n f) (hef : e < f) :
    (m : ℚ) * 2 ^ e < n * 2 ^ f := by
  have hlow : (m : ℚ) < 2 ^ (53 : ℤ) := by exact_mod_cast hm.fits
  have hhigh : (2 : ℚ) ^ (52 : ℤ) ≤ n := by exact_mod_cast hn.full (by have := hm.least; omega)
  calc (m : ℚ) * 2 ^ e < 2 ^ (53 : ℤ) * 2 ^ e := by gcongr
    _ = 2 ^ (52 : ℤ) * 2 ^ (e + 1) := by
      rw [← zpow_add₀ two_ne_zero, ← zpow_add₀ two_ne_zero]
      congr 1
      omega
    _ ≤ n * 2 ^ f := by
      gcongr
      · norm_num
      · omega

/-- Numbers of one sign compare by their exponents and then by their mantissas. -/
theorem signed_lt {s : Sign} {m n : ℕ} {e f : ℤ} (hm : Normal m e) (hn : Normal n f)
    (h : toLex (s.apply e, s.apply (m : ℤ)) < toLex (s.apply f, s.apply (n : ℤ))) :
    ((s.apply m : ℤ) : ℚ) * 2 ^ e < (s.apply n : ℤ) * 2 ^ f := by
  have hfirst : s.apply e < s.apply f ∨ s.apply e = s.apply f ∧ s.apply (m : ℤ) < s.apply n :=
    Prod.Lex.toLex_lt_toLex.mp h
  cases s with
  | positive =>
    rcases hfirst with hef | ⟨heq, hmn⟩
    · exact scaled_lt hm hn hef
    · have hmn' : ((m : ℤ) : ℚ) < (n : ℤ) := Int.cast_lt.mpr hmn
      obtain rfl : e = f := heq
      exact mul_lt_mul_of_pos_right hmn' (by positivity)
  | negative =>
    rcases hfirst with hef | ⟨heq, hmn⟩
    · have hlt := scaled_lt hn hm (neg_lt_neg_iff.mp hef)
      simp only [Sign.apply, Int.cast_neg, Int.cast_natCast]
      linarith
    · have hmn' : ((-m : ℤ) : ℚ) < (-n : ℤ) := Int.cast_lt.mpr hmn
      obtain rfl : e = f := neg_inj.mp heq
      exact mul_lt_mul_of_pos_right hmn' (by positivity)

/-- A finite number and its place among all numbers. -/
inductive Stands : ℚ → ℤ ×ₗ ℤ ×ₗ ℤ → Prop
  | zero : Stands 0 (toLex (0, toLex (0, 0)))
  | finite (s : Sign) {m : ℕ} {e : ℤ} (positive : 0 < m) (normal : Normal m e) :
    Stands ((s.apply m : ℤ) * 2 ^ e) (toLex (s.apply 1, toLex (s.apply e, s.apply (m : ℤ))))

theorem stands_of_value (hx : exactValue? x = some p) : Stands p (floatPlace x) := by
  rw [exactValue?] at hx
  rw [floatPlace]
  cases hu : x.toModel.unpack with
  | notANumber | infinity s => simp [hu] at hx
  | zero s =>
    obtain rfl : 0 = p := by simpa [hu] using hx
    exact .zero
  | finite s m e hm =>
    obtain rfl : ((s.apply m : ℤ) : ℚ) * 2 ^ e = p := by simpa [hu] using hx
    exact .finite s hm (normal_of_unpack hu)

theorem Stands.placeValue {l : ℤ ×ₗ ℤ ×ₗ ℤ} (h : Stands p l) : placeValue l = p := by
  cases h with
  | zero => simp [LiveSheet.placeValue]
  | finite s positive normal => cases s <;> simp [LiveSheet.placeValue, Sign.apply]

theorem Stands.lt {l r : ℤ ×ₗ ℤ ×ₗ ℤ} (hp : Stands p l) (hq : Stands q r) (h : l < r) : p < q := by
  cases hp with
  | zero =>
    cases hq with
    | zero => exact absurd h (lt_irrefl _)
    | finite t hn =>
      cases t with
      | positive => simp [Sign.apply, hn, zpow_pos]
      | negative => simp [Sign.apply, Prod.Lex.toLex_lt_toLex] at h
  | @finite s m e hm hnormal =>
    cases hq with
    | zero =>
      cases s with
      | positive => simp [Sign.apply, Prod.Lex.toLex_lt_toLex] at h
      | negative => simp [Sign.apply, hm, zpow_pos]
    | @finite t n f hn hnormal' =>
      by_cases hst : s = t
      · subst hst
        exact signed_lt hnormal hnormal' (by simpa [Prod.Lex.toLex_lt_toLex] using h)
      · have hleft : (0 : ℚ) < m * 2 ^ e := by positivity
        have hright : (0 : ℚ) < n * 2 ^ f := by positivity
        cases s <;> cases t <;> simp [Sign.apply, Prod.Lex.toLex_lt_toLex] at h hst ⊢
        linarith

theorem place_lt_iff (hx : exactValue? x = some p) (hy : exactValue? y = some q) :
    floatPlace x < floatPlace y ↔ p < q := by
  have hp := stands_of_value hx
  have hq := stands_of_value hy
  refine ⟨hp.lt hq, fun h => not_le.mp fun hle => ?_⟩
  rcases hle.lt_or_eq with hlt | heq
  · exact h.not_gt (hq.lt hp hlt)
  · rw [← hp.placeValue, ← hq.placeValue, heq] at h
    exact h.false

theorem ne_nan_of_value (hx : exactValue? x = some p) : x ≠ .nan := by
  rintro rfl
  cases hx

theorem float_lt_iff_value (hx : exactValue? x = some p) (hy : exactValue? y = some q) :
    x < y ↔ p < q := by
  rw [float_lt_iff_place, place_lt_iff hx hy]
  exact ⟨fun h => h.2.2, fun h => ⟨ne_nan_of_value hx, ne_nan_of_value hy, h⟩⟩

theorem float_le_iff_value (hx : exactValue? x = some p) (hy : exactValue? y = some q) :
    x ≤ y ↔ p ≤ q := by
  rw [float_le_iff_place, ← not_lt, place_lt_iff hy hx, not_lt]
  exact ⟨fun h => h.2.2, fun h => ⟨ne_nan_of_value hx, ne_nan_of_value hy, h⟩⟩

section Unsigned

variable {format : Format} (b : BitVec format.numBits)

/-- The bits without the sign are those of the absolute value. -/
theorem unpack_unsigned : unpack format (packComponents format .positive
    (unpackExponent b) (unpackMantissa b)) = (unpack format b).abs := by
  simp only [unpack, unpackExponent_packComponents, unpackMantissa_packComponents,
    unpackSign_packComponents, Sign.ofBitVec_toBitVec]
  split_ifs <;> rfl

theorem unpack_of_isNaNBits (h : isNaNBits b = true) : unpack format b = .notANumber := by
  obtain ⟨hones, hsome⟩ := of_decide_eq_true h
  simp [unpack, hones, hsome]

end Unsigned

theorem unpack_abs (x : Float) : x.abs.toModel.unpack = x.toModel.unpack.abs := by
  change unpack .binary64 (pack .binary64 (unpack .binary64 x.toBits.toBitVec).abs) =
    (unpack .binary64 x.toBits.toBitVec).abs
  rw [← unpack_unsigned, pack_unpack]
  split
  next hnan => rw [unpack_packedNaN, unpack_of_isNaNBits _ hnan]
  next => rfl

theorem exactValue?_abs (x : Float) : exactValue? x.abs = (exactValue? x).map abs := by
  rw [exactValue?, exactValue?, unpack_abs]
  cases x.toModel.unpack with
  | notANumber | infinity s => rfl
  | zero s => simp [UnpackedFloat.abs]
  | finite s m e hm => cases s <;> simp [UnpackedFloat.abs, Sign.apply, abs_mul]

end LiveSheet
