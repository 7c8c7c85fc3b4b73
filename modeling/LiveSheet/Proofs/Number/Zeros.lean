import Mathlib
import LiveSheet.Proofs.Sheet.Settled

-- What is known of the equality of floats is reached through the whole library only.

namespace LiveSheet

namespace Value

variable {v w : Value}

/-- The value, with the positive zero for the negative one. -/
def plain : Value → Value
  | .float x => .float (if x = -0 then 0 else x)
  | v => v

theorem plain_default : (default : Value).plain = default := by decide

theorem zero_ne_neg_zero : (0 : Float) ≠ -0 := by decide

theorem plain_eq_self_iff : v.plain = v ↔ v ≠ .float (-0) := by
  cases v with
  | float x => by_cases hx : x = -0 <;> simp [plain, hx, zero_ne_neg_zero]
  | _ => simp [plain]

theorem plain_ne : v.plain ≠ .float (-0) := by
  cases v with
  | float x => by_cases hx : x = -0 <;> simp [plain, hx, zero_ne_neg_zero]
  | _ => simp [plain]

theorem plain_plain : v.plain.plain = v.plain :=
  plain_eq_self_iff.mpr plain_ne

theorem float_same_iff {x y : Float} : (Value.float x).Same (.float y) ↔
    (if x = -0 then 0 else x) = if y = -0 then 0 else y := by
  have hzero := zero_ne_neg_zero
  have hnan : (0 : Float) ≠ .nan ∧ (-0 : Float) ≠ .nan := by decide
  have hsame : (Value.float x).Same (.float y) ↔ (x == y) = true ∨ x = .nan ∧ y = .nan := by
    simp only [Same, isNaN, Float.isNaN_eq_decide_eq_nan, decide_eq_true_eq]
    rfl
  rw [hsame, Float.beq_iff_ne_nan_and_eq]
  grind

/-- Values are the same if they differ at most in the sign of a zero. -/
theorem same_iff : v.Same w ↔ v.plain = w.plain := by
  have hsame : v.Same w ↔ v.beq w = true ∨ v.isNaN = true ∧ w.isNaN = true := Iff.rfl
  cases v with
  | float x =>
    cases w with
    | float y => rw [float_same_iff, plain, plain, float.injEq]
    | _ => simp [hsame, beq, isNaN, plain]
  | _ => cases w <;> simp [hsame, beq, isNaN, plain]

theorem isNaN_iff : v.isNaN = true ↔ v = .float .nan := by
  cases v with
  | float x => simp [isNaN, Float.isNaN_eq_decide_eq_nan]
  | _ => simp [isNaN]

/-- What does not tell the two zeros apart is the same on values that are the same. -/
theorem Same.congr {α : Type} {f : Value → α} (h : v.Same w)
    (zeros : f (.float 0) = f (.float (-0))) : f v = f w := by
  have hplain : ∀ u : Value, f u.plain = f u := by
    intro u
    by_cases hu : u = .float (-0)
    · simpa [hu, plain] using zeros
    · rw [plain_eq_self_iff.mpr hu]
  rw [← hplain v, same_iff.mp h, hplain w]

theorem Same.isNaN_eq (h : v.Same w) : v.isNaN = w.isNaN :=
  h.congr (by decide)

theorem Same.asText_eq (h : v.Same w) : v.asText = w.asText :=
  h.congr (by decide +kernel)

/-- Among values that are the same, only what is not a number is not equal to itself. -/
theorem Same.beq_eq (h : v.Same w) : (v == w) = !v.isNaN := by
  cases hv : v.isNaN with
  | false => exact h.resolve_right fun hnan => by simp [hv] at hnan
  | true =>
    rw [isNaN_iff.mp hv, isNaN_iff.mp (h.isNaN_eq.symm.trans hv)]
    decide

/-- Among values that are the same, it makes no difference to take over the new one. -/
theorem Same.replaced (h : v.Same w) : (if v == w then v else w) = v := by
  rcases h with h | ⟨hv, hw⟩
  · rw [if_pos h]
  · rw [isNaN_iff.mp hv, isNaN_iff.mp hw, ite_self]

/-- A value that is equal to the one in place leaves that there. -/
theorem plain_of_replaced (old : v = default ∨ v = w.plain) :
    (if v == w then v else w) = w.plain := by
  have hv : v.plain = v := by
    rcases old with rfl | rfl
    · exact plain_default
    · exact plain_plain
  split
  next h =>
    have hsame := same_iff.mp (.inl h)
    rwa [hv] at hsame
  next h =>
    refine (plain_eq_self_iff.mpr ?_).symm
    rintro rfl
    apply h
    rcases old with rfl | rfl <;> decide

end Value

end LiveSheet
