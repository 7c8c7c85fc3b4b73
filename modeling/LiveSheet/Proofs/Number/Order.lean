import LiveSheet.Proofs.Number.Exact

namespace LiveSheet

open Float.Model (UnpackedFloat)
open Float.Model.UnpackedFloat (Sign)

/-- Where a number stands among all numbers. Both zeros stand in one place. -/
def unpackedPlace : UnpackedFloat → ℤ ×ₗ ℤ ×ₗ ℤ
  | .infinity s => toLex (s.apply 2, toLex (0, 0))
  | .finite s m e _ => toLex (s.apply 1, toLex (s.apply e, s.apply m))
  | .zero _ | .notANumber => toLex (0, toLex (0, 0))

def floatPlace (x : Float) : ℤ ×ₗ ℤ ×ₗ ℤ :=
  unpackedPlace x.toModel.unpack

theorem compare_natCast (m n : ℕ) : compare (m : ℤ) n = compare m n := by
  simp only [compare, compareOfLessAndEq, Int.ofNat_lt, Int.natCast_inj]

theorem compare_neg_neg (i j : ℤ) : compare (-i) (-j) = (compare i j).swap := by
  rw [Int.compare_swap]
  simp only [compare, compareOfLessAndEq, neg_lt_neg_iff, neg_inj, @eq_comm _ i]

/-- Numbers of one sign compare by their exponents and then by their mantissas. -/
theorem compare_finite {s : Sign} {m n : ℕ} {i j : ℤ} (hm : 0 < m) (hn : 0 < n) :
    (UnpackedFloat.finite s m i hm).compare (.finite s n j hn) =
      some ((compare (s.apply i) (s.apply j)).then (compare (s.apply m) (s.apply n))) := by
  cases s with
  | positive =>
    simp only [Sign.apply, compare_natCast]
    rfl
  | negative =>
    simp only [Sign.apply, compare_neg_neg, compare_natCast, ← Ordering.swap_then]
    rfl

theorem compare_eq_compare_unpackedPlace {a b : UnpackedFloat} (ha : a ≠ .notANumber)
    (hb : b ≠ .notANumber) :
    a.compare b = some (compare (unpackedPlace a) (unpackedPlace b)) := by
  cases a with
  | notANumber => exact absurd rfl ha
  | infinity s =>
    cases b with
    | notANumber => exact absurd rfl hb
    | infinity t | zero t | finite t => cases s <;> cases t <;> rfl
  | zero s =>
    cases b with
    | notANumber => exact absurd rfl hb
    | zero t => rfl
    | infinity t | finite t => cases t <;> rfl
  | finite s m i hm =>
    cases b with
    | notANumber => exact absurd rfl hb
    | infinity t | zero t => cases s <;> cases t <;> rfl
    | finite t n j hn =>
      by_cases hst : s = t
      · subst hst
        rw [compare_finite]
        cases s <;> rfl
      · cases s <;> cases t <;> first | exact absurd rfl hst | rfl

section Floats

variable {x y z : Float}

theorem unpack_eq_notANumber_iff : x.toModel.unpack = .notANumber ↔ x = .nan := by
  have hnan : x.isNaN = true ↔ x.toModel.unpack = .notANumber := by
    change x.toModel.unpack.isNaN = true ↔ _
    cases x.toModel.unpack <;> simp [UnpackedFloat.isNaN]
  rw [← hnan, Float.isNaN_eq_decide_eq_nan, decide_eq_true_iff]

theorem float_lt_iff_compare : x < y ↔
    x.toModel.unpack.compare y.toModel.unpack = some .lt := by
  change decide ((_ == some Ordering.lt) = true) = true ↔ _
  rw [decide_eq_true_iff, beq_iff_eq]

theorem float_beq_iff_compare : (x == y) = true ↔
    x.toModel.unpack.compare y.toModel.unpack = some .eq := by
  change (_ == some Ordering.eq) = true ↔ _
  rw [beq_iff_eq]

theorem compare_of_nan (h : x = .nan ∨ y = .nan) :
    x.toModel.unpack.compare y.toModel.unpack = none := by
  rcases h with h | h
  · rw [unpack_eq_notANumber_iff.mpr h]
    rfl
  · rw [unpack_eq_notANumber_iff.mpr h]
    cases x.toModel.unpack <;> rfl

theorem compare_eq_some_iff {o : Ordering} :
    x.toModel.unpack.compare y.toModel.unpack = some o ↔
      x ≠ .nan ∧ y ≠ .nan ∧ compare (floatPlace x) (floatPlace y) = o := by
  by_cases h : x = .nan ∨ y = .nan
  · rw [compare_of_nan h]
    simp only [reduceCtorEq, false_iff]
    tauto
  · obtain ⟨hx, hy⟩ := not_or.mp h
    rw [compare_eq_compare_unpackedPlace (mt unpack_eq_notANumber_iff.mp hx)
      (mt unpack_eq_notANumber_iff.mp hy), Option.some.injEq]
    exact ⟨fun ho => ⟨hx, hy, ho⟩, fun ho => ho.2.2⟩

theorem float_lt_iff_place : x < y ↔ x ≠ .nan ∧ y ≠ .nan ∧ floatPlace x < floatPlace y := by
  rw [float_lt_iff_compare, compare_eq_some_iff, compare_lt_iff_lt]

theorem float_le_iff_place : x ≤ y ↔ x ≠ .nan ∧ y ≠ .nan ∧ floatPlace x ≤ floatPlace y := by
  have hcompare : x ≤ y ↔
      ∃ o, x.toModel.unpack.compare y.toModel.unpack = some o ∧ o.isLE = true := by
    change decide (Option.any _ _ = true) = true ↔ _
    rw [decide_eq_true_iff, Option.any_eq_true]
  simp only [hcompare, compare_eq_some_iff, ← compare_le_iff_le, Ordering.isLE_iff_ne_gt]
  constructor
  · rintro ⟨o, ⟨hx, hy, rfl⟩, ho⟩
    exact ⟨hx, hy, ho⟩
  · rintro ⟨hx, hy, ho⟩
    exact ⟨_, ⟨hx, hy, rfl⟩, ho⟩

theorem float_beq_iff_place :
    (x == y) = true ↔ x ≠ .nan ∧ y ≠ .nan ∧ floatPlace x = floatPlace y := by
  rw [float_beq_iff_compare, compare_eq_some_iff, compare_eq_iff_eq]

theorem float_lt_irrefl : ¬x < x := fun h => lt_irrefl _ (float_lt_iff_place.mp h).2.2

theorem float_lt_trans (hxy : x < y) (hyz : y < z) : x < z := by
  rw [float_lt_iff_place] at hxy hyz ⊢
  exact ⟨hxy.1, hyz.2.1, hxy.2.2.trans hyz.2.2⟩

/-- Of two numbers one is smaller, or they are equal. -/
theorem float_beq_of_not_lt (hx : x ≠ .nan) (hy : y ≠ .nan) (hxy : ¬x < y) (hyx : ¬y < x) :
    (x == y) = true := by
  rw [float_lt_iff_place] at hxy hyx
  refine float_beq_iff_place.mpr ⟨hx, hy, le_antisymm ?_ ?_⟩
  · exact not_lt.mp fun h => hyx ⟨hy, hx, h⟩
  · exact not_lt.mp fun h => hxy ⟨hx, hy, h⟩

theorem unpackedPlace_le_inf (a : UnpackedFloat) :
    unpackedPlace a ≤ unpackedPlace (.infinity .positive) := by
  have hfirst : ∀ {n : ℤ} {p : ℤ ×ₗ ℤ}, n < 2 →
      toLex (n, p) ≤ unpackedPlace (.infinity .positive) := fun h =>
    Prod.Lex.toLex_le_toLex.mpr (.inl h)
  cases a with
  | notANumber | zero s => exact hfirst (by decide)
  | infinity s => cases s <;> decide
  | finite s m e hm => cases s <;> exact hfirst (by simp [Sign.apply])

theorem neg_inf_le_unpackedPlace (a : UnpackedFloat) :
    unpackedPlace (.infinity .negative) ≤ unpackedPlace a := by
  have hfirst : ∀ {n : ℤ} {p : ℤ ×ₗ ℤ}, -2 < n →
      unpackedPlace (.infinity .negative) ≤ toLex (n, p) := fun h =>
    Prod.Lex.toLex_le_toLex.mpr (.inl h)
  cases a with
  | notANumber | zero s => exact hfirst (by decide)
  | infinity s => cases s <;> decide
  | finite s m e hm => cases s <;> exact hfirst (by simp [Sign.apply])

theorem not_inf_lt : ¬Float.inf < x := fun h =>
  not_lt.mpr (unpackedPlace_le_inf x.toModel.unpack) (float_lt_iff_place.mp h).2.2

theorem not_lt_neg_inf : ¬x < -Float.inf := fun h =>
  not_lt.mpr (neg_inf_le_unpackedPlace x.toModel.unpack) (float_lt_iff_place.mp h).2.2

end Floats

end LiveSheet
