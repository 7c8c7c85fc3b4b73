import Mathlib
import LiveSheet.Value

-- What is known of the bits of a float is reached through the whole library only.

namespace LiveSheet

/-- A power by how far its exponent is on either side of zero. -/
theorem zpow_eq_div {b : ℚ} (nonzero : b ≠ 0) (e : ℤ) :
    b ^ e = b ^ e.toNat / b ^ (-e).toNat := by
  have hsplit : e = (e.toNat : ℤ) - ((-e).toNat : ℤ) := by omega
  conv => lhs; rw [hsplit]
  rw [zpow_sub₀ nonzero, zpow_natCast, zpow_natCast]

open Float.Model (UnpackedFloat)
open Float.Model.UnpackedFloat (Sign unpackSign unpackExponent unpackMantissa)

/-- The number that a float stands for, if it stands for a finite one. -/
def exactValue? (x : Float) : Option ℚ :=
  match x.toModel.unpack with
  | .zero _ => some 0
  | .finite s m e _ => some ((s.apply m : ℤ) * 2 ^ e)
  | .infinity _ | .notANumber => none

namespace Binary

def ofUnpacked : UnpackedFloat → Binary
  | .zero s => .finite (s == .negative) 0 leastExponent
  | .finite s m e _ => .finite (s == .negative) m e
  | .infinity s => .infinite (s == .negative)
  | .notANumber => .notANumber

section Fields

variable (b : BitVec 64)

theorem toNat_unpackExponent : (@unpackExponent .binary64 b).toNat =
    b.toNat / Nat.pow 2 52 % Nat.pow 2 11 := by
  rw [UnpackedFloat.unpackExponent_def, BitVec.extractLsb'_toNat, Nat.shiftRight_eq_div_pow]
  rfl

theorem toNat_unpackMantissa : (@unpackMantissa .binary64 b).toNat =
    b.toNat % Nat.pow 2 52 := by
  rw [UnpackedFloat.unpackMantissa_def, BitVec.extractLsb'_toNat]
  rfl

theorem sign_unpackSign : (Sign.ofBitVec (@unpackSign .binary64 b) == .negative) =
    decide (Nat.pow 2 63 ≤ b.toNat) := by
  have hbit : (@unpackSign .binary64 b).toNat = b.toNat / 2 ^ 63 % 2 := by
    rw [UnpackedFloat.unpackSign_def, BitVec.extractLsb'_toNat, Nat.shiftRight_eq_div_pow]
    rfl
  have hlt := b.isLt
  have hpow : Nat.pow 2 63 = 2 ^ 63 := rfl
  rw [Sign.ofBitVec, hpow]
  split
  next hz =>
    have hsmall : b.toNat / 2 ^ 63 % 2 = 0 := by rw [← hbit, hz]; rfl
    rw [decide_eq_false (by omega)]
    rfl
  next hz =>
    have hbig : b.toNat / 2 ^ 63 % 2 ≠ 0 := by
      rw [← hbit]
      exact fun h => hz (BitVec.eq_of_toNat_eq h)
    rw [decide_eq_true (by omega)]
    rfl

end Fields

/-- The bits of a float are taken apart as its format says. -/
theorem ofFloat_eq (x : Float) : ofFloat x = ofUnpacked x.toModel.unpack := by
  have hexponent := toNat_unpackExponent x.toBits.toBitVec
  have hmantissa := toNat_unpackMantissa x.toBits.toBitVec
  have hsign := sign_unpackSign x.toBits.toBitVec
  change _ = x.toBits.toNat / _ % _ at hexponent
  change _ = x.toBits.toNat % _ at hmantissa
  change _ = decide (_ ≤ x.toBits.toNat) at hsign
  have hones : ∀ v : BitVec 11, v = -1#11 ↔ v.toNat = 2047 := fun v => BitVec.toNat_inj.symm
  have hzero : ∀ v : BitVec 11, v = 0#11 ↔ v.toNat = 0 := fun v => BitVec.toNat_inj.symm
  have hnone : ∀ v : BitVec 52, v = 0#52 ↔ v.toNat = 0 := fun v => BitVec.toNat_inj.symm
  change ofFloat x = ofUnpacked (UnpackedFloat.unpack .binary64 x.toBits.toBitVec)
  unfold ofFloat UnpackedFloat.unpack
  dsimp only
  rw [← hexponent, ← hmantissa, ← hsign]
  split
  next h =>
    rw [if_pos ((hones _).mpr h)]
    split
    next h => rw [if_pos ((hnone _).mpr h)]; rfl
    next h => rw [if_neg (mt (hnone _).mp h)]; rfl
  next h =>
    rw [if_neg (mt (hones _).mp h)]
    split
    next h =>
      rw [if_pos ((hzero _).mpr h)]
      split
      next hm =>
        rw [(hnone _).mp hm]
        rfl
      next => rw [h]; rfl
    next h =>
      rw [if_neg (mt (hzero _).mp h)]
      have himplicit : ∀ v : BitVec 52, (1#1 ++ v).toNat = Nat.pow 2 52 + v.toNat := fun v => by
        rw [BitVec.toNat_append, ← Nat.shiftLeft_add_eq_or_of_lt v.isLt]
        rfl
      exact congrArg (finite _ · _) (himplicit _).symm

theorem sign_eq_div {bits : ℕ} (h : bits < 2 ^ 64) :
    (if decide (2 ^ 63 ≤ bits) = true then 2 ^ 63 else 0) = bits / 2 ^ 63 * 2 ^ 63 := by
  simp only [decide_eq_true_eq]
  split <;> omega

/-- The fields of a float that is finite, put together again. -/
theorem toBits_of_finite {x : Float} {negative : Bool} {m : ℕ} {e : ℤ}
    (h : ofFloat x = .finite negative m e) :
    x.toBits.toNat = (if negative then 2 ^ 63 else 0) + ((e + 1074).toNat * 2 ^ 52 + m) ∧
      m < 2 ^ 53 ∧ -1074 ≤ e ∧ e ≤ 971 ∧ (e ≠ -1074 → 2 ^ 52 ≤ m) := by
  have hbits := x.toBits.toNat_lt
  simp only [ofFloat, leastExponent, Nat.pow_eq] at h
  generalize x.toBits.toNat = bits at h hbits ⊢
  split at h
  next => split at h <;> cases h
  next hones =>
    split at h
    · cases h
      rw [sign_eq_div hbits]
      omega
    · cases h
      rw [sign_eq_div hbits]
      omega

/-- A scaled number is an integer if the scale divides it, and then it is the quotient. -/
theorem scaled_eq_iff {m : ℕ} {e n : ℤ} : (m : ℚ) * 2 ^ e = n ↔
    m % Nat.pow 2 (-e).toNat = 0 ∧
      ((m * Nat.pow 2 e.toNat / Nat.pow 2 (-e).toNat : ℕ) : ℤ) = n := by
  have hwhole : (m : ℚ) * 2 ^ e = n ↔ ((m * 2 ^ e.toNat : ℕ) : ℤ) = n * (2 ^ (-e).toNat : ℕ) := by
    rw [zpow_eq_div two_ne_zero, ← mul_div_assoc, div_eq_iff (by positivity)]
    exact_mod_cast Iff.rfl
  -- one of the two powers is 1, so that the scale has to divide the number itself
  have hcoprime : Nat.Coprime (2 ^ (-e).toNat) (2 ^ e.toNat) := by
    rcases le_total 0 e with he | he
    · rw [show (-e).toNat = 0 by omega]
      exact Nat.coprime_one_left _
    · rw [show e.toNat = 0 by omega]
      exact Nat.coprime_one_right _
  change _ ↔ m % 2 ^ (-e).toNat = 0 ∧ ((m * 2 ^ e.toNat / 2 ^ (-e).toNat : ℕ) : ℤ) = n
  have hpos : 0 < 2 ^ (-e).toNat := by positivity
  generalize 2 ^ (-e).toNat = d at hwhole hcoprime hpos ⊢
  generalize 2 ^ e.toNat = q at hwhole hcoprime ⊢
  rw [hwhole]
  constructor
  · intro h
    have hdvd : d ∣ m * q := by exact_mod_cast Dvd.intro_left n h.symm
    refine ⟨Nat.mod_eq_zero_of_dvd (hcoprime.dvd_of_dvd_mul_right hdvd), ?_⟩
    rw [Int.natCast_div, h, Int.mul_ediv_cancel _ (by omega)]
  · rintro ⟨hmod, rfl⟩
    have hdvd : d ∣ m * q := Dvd.dvd.mul_right (Nat.dvd_of_mod_eq_zero hmod) q
    exact_mod_cast (Nat.div_mul_cancel hdvd).symm

theorem toInt?_finite {s : Sign} {m : ℕ} {e n : ℤ} :
    (finite (s == .negative) m e).toInt? = some n ↔ ((s.apply m : ℤ) : ℚ) * 2 ^ e = n := by
  cases s with
  | positive =>
    refine Iff.trans ?_ (scaled_eq_iff (m := m)).symm
    simp [toInt?, show (Sign.positive == Sign.negative) = false from rfl]
  | negative =>
    have hneg : (((Sign.negative.apply m : ℤ) : ℚ) * 2 ^ e = n) ↔ (m : ℚ) * 2 ^ e = (-n : ℤ) := by
      simp only [Sign.apply]
      push_cast
      constructor <;> intro h <;> linarith
    rw [hneg, scaled_eq_iff]
    simp [toInt?, neg_eq_iff_eq_neg]

/-- A float has an integer reading if its exact value is an integer. -/
theorem toInt?_eq_some_iff {x : Float} {n : ℤ} :
    (ofFloat x).toInt? = some n ↔ exactValue? x = some (n : ℚ) := by
  rw [ofFloat_eq, exactValue?]
  cases x.toModel.unpack with
  | notANumber => simp [ofUnpacked, toInt?]
  | infinity s => simp [ofUnpacked, toInt?]
  | zero s =>
    refine (toInt?_finite (m := 0)).trans ?_
    cases s <;> simp [Sign.apply]
  | finite s m e hm =>
    refine toInt?_finite.trans ?_
    rw [Option.some.injEq]

end Binary

end LiveSheet
