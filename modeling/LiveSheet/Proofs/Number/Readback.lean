import LiveSheet.Proofs.Number.Range
import LiveSheet.Proofs.Number.Digits
import LiveSheet.Proofs.Number.Shortest

namespace LiveSheet

open Float.Model (UnpackedFloat)

section Bits

variable {x : Float} {negative : Bool} {m : ℕ} {e : ℤ}

theorem Binary.legal_of_finite (h : Binary.ofFloat x = .finite negative m e) (nonzero : m ≠ 0) :
    Neighbourhood.Legal ⟨m, e⟩ := by
  obtain ⟨-, hfits, hleast, hgreatest, hfull⟩ := toBits_of_finite h
  exact ⟨Nat.pos_of_ne_zero nonzero, hfits, hleast, hgreatest, hfull⟩

/-- Up to infinity, all bits are those of a float. -/
theorem toBits_ofBits {n : ℕ} (h : n ≤ 2047 * 2 ^ 52) :
    (Float.ofBits (UInt64.ofNat n)).toBits.toNat = n := by
  have hnat : (UInt64.ofNat n).toBitVec.toNat = n :=
    UInt64.toNat_ofNat_of_lt' (h.trans_lt (by decide))
  have hpack : (Float.ofBits (UInt64.ofNat n)).toBits.toBitVec =
      (UnpackedFloat.unpack .binary64 (UInt64.ofNat n).toBitVec).pack .binary64 := rfl
  rw [UnpackedFloat.pack_unpack, if_neg] at hpack
  · exact (congrArg BitVec.toNat hpack).trans hnat
  · intro hnan
    have hexponent := Binary.toNat_unpackExponent (UInt64.ofNat n).toBitVec
    have hmantissa := Binary.toNat_unpackMantissa (UInt64.ofNat n).toBitVec
    obtain ⟨hones, hsome⟩ := of_decide_eq_true hnan
    rw [hnat, congrArg BitVec.toNat hones] at hexponent
    rw [hnat] at hmantissa
    have hpositive : n % 2 ^ 52 ≠ 0 := fun hzero =>
      hsome (BitVec.eq_of_toNat_eq (hmantissa.trans hzero))
    have hfield : n / 2 ^ 52 % 2 ^ 11 = 2047 := hexponent.symm
    omega

/-- A fraction that reads as a float is rounded to it. -/
theorem nearestFloat_eq (h : Binary.ofFloat x = .finite negative m e) (nonzero : m ≠ 0)
    {num den : ℕ} (numerator : 0 < num) (denominator : 0 < den)
    (reads : Neighbourhood.Reads ⟨m, e⟩ (num / den)) : nearestFloat negative num den = x := by
  have hbits := reads.nearestBits_eq (Binary.legal_of_finite h nonzero) numerator denominator
  have hnat : (if negative then Nat.pow 2 63 + nearestBits num den else nearestBits num den) =
      x.toBits.toNat := by
    rw [(Binary.toBits_of_finite h).1, hbits]
    cases negative <;> simp
  simp only [nearestFloat, if_neg numerator.ne', hnat, UInt64.ofNat_toNat, Float.ofBits_toBits]

theorem Binary.toBits_of_infinite (h : Binary.ofFloat x = .infinite negative) :
    x.toBits.toNat = (if negative then 2 ^ 63 else 0) + 2047 * 2 ^ 52 := by
  have hbits := x.toBits.toNat_lt
  simp only [ofFloat, Nat.pow_eq] at h
  generalize x.toBits.toNat = bits at h hbits ⊢
  split at h
  next hones =>
    split at h
    · cases h
      rw [sign_eq_div hbits]
      omega
    · cases h
  next => split at h <;> cases h

theorem ofBits_of_toNat {n : ℕ} (h : x.toBits.toNat = n) : x = Float.ofBits (UInt64.ofNat n) := by
  rw [← h, UInt64.ofNat_toNat, Float.ofBits_toBits]

end Bits

namespace Decimal

variable {d : Decimal} {x : Float} {m : ℕ} {e : ℤ}

/-- A decimal that reads as a float is not beyond the places where floats lie. -/
theorem places_bounds (nonzero : 0 < d.digits)
    (least : (2 : ℚ) ^ (-1075 : ℤ) ≤ d.digits * 10 ^ d.exponent)
    (greatest : (d.digits : ℚ) * 10 ^ d.exponent < 2 ^ (1024 : ℤ)) :
    -400 ≤ (Nat.toDigits 10 d.digits).length + d.exponent ∧
      (Nat.toDigits 10 d.digits).length + d.exponent ≤ 400 := by
  obtain ⟨length, hlength⟩ : ∃ k, (Nat.toDigits 10 d.digits).length = k + 1 :=
    ⟨_, (Nat.sub_add_cancel Nat.length_toDigits_pos).symm⟩
  have hten : (10 : ℚ) ≠ 0 := by norm_num
  have hpow : (0 : ℚ) < 10 ^ d.exponent := by positivity
  obtain ⟨hdigits, hdigits'⟩ := length_toDigits_bounds hlength nonzero
  have habove : (10 : ℚ) ^ length ≤ d.digits := by exact_mod_cast hdigits
  have hbelow : (d.digits : ℚ) < 10 ^ (length + 1) := by exact_mod_cast hdigits'
  have hmonotone : ∀ {i j : ℤ}, i ≤ j → (10 : ℚ) ^ i ≤ 10 ^ j :=
    fun hij => zpow_le_zpow_right₀ (by norm_num) hij
  have hbase : (2 : ℚ) ^ (1200 : ℤ) ≤ 10 ^ (400 : ℤ) :=
    calc (2 : ℚ) ^ (1200 : ℤ) = (2 ^ (3 : ℤ)) ^ (400 : ℤ) := by rw [← zpow_mul]; rfl
      _ ≤ 10 ^ (400 : ℤ) := zpow_le_zpow_left₀ (by norm_num) (by norm_num) (by norm_num)
  rw [hlength]
  constructor
  · by_contra hlt
    have hsmall : (d.digits : ℚ) * 10 ^ d.exponent < 10 ^ (-400 : ℤ) :=
      calc (d.digits : ℚ) * 10 ^ d.exponent < 10 ^ (length + 1) * 10 ^ d.exponent := by gcongr
        _ = 10 ^ ((length + 1 : ℕ) + d.exponent) := by rw [zpow_add₀ hten, zpow_natCast]
        _ ≤ 10 ^ (-400 : ℤ) := hmonotone (by omega)
    have htwo : (2 : ℚ) ^ (-1200 : ℤ) < 2 ^ (-1200 : ℤ) :=
      calc (2 : ℚ) ^ (-1200 : ℤ) ≤ 2 ^ (-1075 : ℤ) := zpow_le_zpow_right₀ one_le_two (by norm_num)
        _ < 10 ^ (-400 : ℤ) := least.trans_lt hsmall
        _ ≤ 2 ^ (-1200 : ℤ) := by
            rw [zpow_neg, zpow_neg]
            exact inv_anti₀ (by positivity) hbase
    exact htwo.false
  · by_contra hlt
    have hlarge : (10 : ℚ) ^ (400 : ℤ) ≤ d.digits * 10 ^ d.exponent :=
      calc (10 : ℚ) ^ (400 : ℤ) ≤ 10 ^ ((length : ℕ) + d.exponent) := hmonotone (by omega)
        _ = 10 ^ length * 10 ^ d.exponent := by rw [zpow_add₀ hten, zpow_natCast]
        _ ≤ d.digits * 10 ^ d.exponent := by gcongr
    have htwo : (2 : ℚ) ^ (1200 : ℤ) < 2 ^ (1200 : ℤ) :=
      calc (2 : ℚ) ^ (1200 : ℤ) ≤ d.digits * 10 ^ d.exponent := hbase.trans hlarge
        _ < 2 ^ (1024 : ℤ) := greatest
        _ ≤ 2 ^ (1200 : ℤ) := zpow_le_zpow_right₀ one_le_two (by norm_num)
    exact htwo.false

/-- A decimal that reads as a float is read as it. -/
theorem toFloat_eq (h : Binary.ofFloat x = .finite d.negative m e) (nonzero : m ≠ 0)
    (reads : Neighbourhood.Reads ⟨m, e⟩ (d.digits * 10 ^ d.exponent)) : d.toFloat = x := by
  obtain ⟨hleast, hgreatest⟩ := reads.bounds (Binary.legal_of_finite h nonzero)
  have hdigits : 0 < d.digits := by
    by_contra hzero
    rw [show d.digits = 0 by omega, Nat.cast_zero, zero_mul] at hleast
    exact absurd hleast (not_le.mpr (by positivity))
  obtain ⟨hlow, hhigh⟩ := places_bounds hdigits hleast hgreatest
  have hfraction : ((d.digits * Nat.pow 10 d.exponent.toNat : ℕ) : ℚ) /
      (Nat.pow 10 (-d.exponent).toNat : ℕ) = d.digits * 10 ^ d.exponent := by
    rw [zpow_eq_div (by norm_num), mul_div_assoc']
    simp
  simp only [toFloat, hdigits.ne', decide_false, Bool.false_or, decide_eq_true_eq]
  rw [if_neg (by omega), if_neg (by omega)]
  have hpow : ∀ k, 0 < Nat.pow 10 k := fun k => Nat.pow_pos (by decide)
  exact nearestFloat_eq h nonzero (Nat.mul_pos hdigits (hpow _)) (hpow _) (hfraction ▸ reads)

end Decimal

/-- The digits that a float is printed with are read as it. -/
theorem readFloat?_of_finite {x : Float} {negative : Bool} {m : ℕ} {e : ℤ}
    (h : Binary.ofFloat x = .finite negative m e) (nonzero : m ≠ 0) :
    readFloat? (trimBlanks (floatText x)) = some x := by
  have hreads := Neighbourhood.shortest_reads (Binary.legal_of_finite h nonzero)
  simp only [floatText, h, nonzero, ↓reduceIte]
  generalize Neighbourhood.shortest ⟨m, e⟩ = found at hreads ⊢
  rw [Decimal.trimBlanks_text, readFloat?, Decimal.read?_text]
  refine congrArg some (Decimal.toFloat_eq h nonzero ?_)
  convert hreads using 1
  push_cast
  rw [mul_assoc, ← zpow_natCast, ← zpow_add₀ (by norm_num)]
  congr 2
  omega

theorem eq_nan_of_notANumber {x : Float} (h : Binary.ofFloat x = .notANumber) : x = .nan := by
  rw [Binary.ofFloat_eq] at h
  have hnan : x.isNaN = true := by
    change x.toModel.unpack.isNaN = true
    cases hu : x.toModel.unpack <;> simp [hu, Binary.ofUnpacked] at h
    rfl
  simpa [Float.isNaN_eq_decide_eq_nan] using hnan

/-- The shortest text of a float is read as that float. -/
theorem readFloat?_floatText (x : Float) : readFloat? (trimBlanks (floatText x)) = some x := by
  cases h : Binary.ofFloat x with
  | notANumber =>
    rw [eq_nan_of_notANumber h]
    decide
  | infinite negative =>
    rw [ofBits_of_toNat (Binary.toBits_of_infinite h)]
    cases negative <;> decide
  | finite negative m e =>
    by_cases hm : m = 0
    · obtain ⟨hbits, -, hleast, -, hfull⟩ := Binary.toBits_of_finite h
      have he : e = -1074 := by
        by_contra hne
        have := hfull hne
        omega
      subst hm he
      rw [ofBits_of_toNat hbits]
      cases negative <;> decide
    · exact readFloat?_of_finite h hm

theorem natAbs_of_signed {s : UnpackedFloat.Sign} {m : ℕ} {e i : ℤ} (positive : 0 < m)
    (h : ((s.apply m : ℤ) : ℚ) * 2 ^ e = i) :
    (m : ℚ) * 2 ^ e = i.natAbs ∧ (s == .negative) = decide (i < 0) := by
  have hpositive : (0 : ℚ) < m * 2 ^ e := by positivity
  rw [Nat.cast_natAbs]
  cases s with
  | positive =>
    change ((m : ℤ) : ℚ) * 2 ^ e = i at h
    rw [Int.cast_natCast] at h
    rw [h] at hpositive ⊢
    have hlt : 0 < i := by exact_mod_cast hpositive
    rw [abs_of_pos hlt]
    exact ⟨rfl, (decide_eq_false (by omega)).symm⟩
  | negative =>
    change ((-m : ℤ) : ℚ) * 2 ^ e = i at h
    rw [Int.cast_neg, Int.cast_natCast, neg_mul, neg_eq_iff_eq_neg] at h
    rw [h, Left.neg_pos_iff] at hpositive
    have hlt : i < 0 := by exact_mod_cast hpositive
    rw [h, abs_of_neg hlt, Int.cast_neg]
    exact ⟨rfl, (decide_eq_true hlt).symm⟩

/-- The shortest digits of a whole number of at most fifteen digits are those of the integer. -/
theorem floatText_whole {x : Float} {i : ℤ} (whole : exactValue? x = some (i : ℚ))
    (small : i.natAbs < 10 ^ 15) (signed : x ≠ -0) : floatText x = (toString i).toList := by
  have hbinary := Binary.ofFloat_eq x
  rw [toList_toString_int, floatText]
  rw [exactValue?] at whole
  cases hu : x.toModel.unpack with
  | notANumber => simp [hu] at whole
  | infinity s => simp [hu] at whole
  | zero s =>
    rw [hu] at whole hbinary
    have hi : i = 0 := by simpa using whole.symm
    rw [hbinary, hi]
    cases s with
    | positive => rfl
    | negative =>
      have hbits := ofBits_of_toNat (Binary.toBits_of_finite hbinary).1
      exact absurd (hbits.trans (by decide)) signed
  | finite s m e hm =>
    rw [hu] at whole hbinary
    have hlegal : Neighbourhood.Legal ⟨m, e⟩ := Binary.legal_of_finite hbinary hm.ne'
    obtain ⟨hvalue, hsign⟩ := natAbs_of_signed hm (Option.some.inj whole)
    obtain ⟨hplace, hdigits⟩ := Neighbourhood.shortest_of_whole hlegal hvalue
      (Neighbourhood.exponent_le_of_small hlegal hvalue small)
    have hnonzero : 0 < (Neighbourhood.shortest ⟨m, e⟩).1 := by
      refine Nat.pos_of_ne_zero fun hzero => ?_
      rw [hzero, Nat.zero_mul] at hdigits
      rw [← hdigits, Nat.cast_zero] at hvalue
      exact (mul_pos (Nat.cast_pos.mpr hm) (by positivity)).ne' hvalue
    simp only [hbinary, Binary.ofUnpacked, hm.ne', ↓reduceIte, Decimal.text, hsign]
    rw [← toDigits_mul_pow hnonzero, hdigits, show (-(Neighbourhood.shortest ⟨m, e⟩).2).toNat = 0
      by omega, placePoint, if_pos rfl]
    simp

theorem value_quadrillion : exactValue? 1e15 = some (10 ^ 15) := by
  have hbits : (1e15 : Float) = .ofBits 0x430C6BF526340000 := by decide +kernel
  have hvalue : exactValue? (.ofBits 0x430C6BF526340000) =
      some ((((8000000000000000 : ℕ) : ℤ) : ℚ) * 2 ^ (-3 : ℤ)) := rfl
  rw [hbits, hvalue]
  norm_num

theorem abs_lt_quadrillion_iff {x : Float} {i : ℤ} (whole : exactValue? x = some (i : ℚ)) :
    x.abs < 1e15 ↔ i.natAbs < 10 ^ 15 := by
  have habs : exactValue? x.abs = some (|(i : ℚ)|) := by
    rw [exactValue?_abs, whole, Option.map_some]
  rw [float_lt_iff_value habs value_quadrillion, ← Int.cast_abs, Int.abs_eq_natAbs]
  exact_mod_cast Iff.rfl

/-- The text of a float is read as that float, except that a zero has lost its sign. -/
theorem readFloat?_displayText (x : Float) :
    readFloat? (trimBlanks (displayText x).toList) = some (if x = -0 then 0 else x) := by
  by_cases hzero : x = -0
  · rw [hzero]
    decide +kernel
  · have hshortest : displayText x = String.ofList (floatText x) := by
      rw [displayText]
      cases hwhole : (Binary.ofFloat x).toInt? with
      | none => rfl
      | some n =>
        rw [Binary.toInt?_eq_some_iff] at hwhole
        dsimp only
        split
        next hsmall =>
          have hn := (abs_lt_quadrillion_iff hwhole).mp hsmall
          have hmin : Int64.minValue.toInt = -2 ^ 63 := rfl
          have hmax : Int64.maxValue.toInt = 2 ^ 63 - 1 := rfl
          rw [Int64.toInt_ofIntClamp (by omega) (by omega), floatText_whole hwhole hn hzero,
            String.ofList_toList]
        next => rfl
    rw [hshortest, String.toList_ofList, readFloat?_floatText, if_neg hzero]

namespace Value

/-- The text of a number has that number as its reading. -/
theorem asText_keeps_number : (∀ i : Int64, (string (integer i).asText).asInteger = .ok i) ∧
    ∀ x : Float, x.isNaN = false →
      ∃ y, (string (float x).asText).asFloat = .ok y ∧ (y == x) = true := by
  constructor
  · intro i
    obtain ⟨hlow, hhigh⟩ := Int64.bounds i
    have hmin : Int64.minValue.toInt = -2 ^ 63 := rfl
    have hmax : Int64.maxValue.toInt = 2 ^ 63 - 1 := rfl
    have hread : readInteger? (toString i.toInt).toList = some i := by
      rw [readInteger?, readInt?_toString, Option.bind_some, hmin, hmax, if_pos ⟨hlow, hhigh⟩,
        Int64.ofInt_toInt]
    simp only [asText, asInteger, trimBlanks_toString, hread]
    rfl
  · intro x hx
    refine ⟨if x = -0 then 0 else x, ?_, ?_⟩
    · simp only [asText, asFloat, readFloat?_displayText]
    · have hnan : x ≠ .nan := by simpa [Float.isNaN_eq_decide_eq_nan] using hx
      split
      next hzero =>
        rw [hzero]
        decide
      next => exact Float.beq_self_iff.mpr hnan

theorem asText_keeps_number_extremes :
    (string (integer Int64.minValue).asText).asInteger = .ok Int64.minValue ∧
      (Float.ofBits 1).isNaN = false ∧
      ∃ y, (string (float (Float.ofBits 1)).asText).asFloat = .ok y ∧
        (y == Float.ofBits 1) = true :=
  ⟨asText_keeps_number.1 Int64.minValue, by decide, asText_keeps_number.2 _ (by decide)⟩

end Value

end LiveSheet
