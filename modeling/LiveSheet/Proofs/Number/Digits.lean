import Mathlib.Algebra.Order.Ring.Nat
import Mathlib.Data.List.TakeWhile
import LiveSheet.Proofs.Formula.Naming

namespace LiveSheet

variable {negative : Bool} {n places : ℕ} {cs ds : List Char}

section Reading

theorem ofDigits_toDigits : ofDigits (Nat.toDigits 10 n) = n :=
  Nat.ofDigitChars_ten_toDigits

theorem ofDigits_append_zeros : ofDigits (ds ++ List.replicate n '0') = ofDigits ds * 10 ^ n := by
  have happend := Nat.ofDigitChars_append (b := 10) (l := ds) (m := List.replicate n '0') 0
  rw [Nat.ofDigitChars_replicate_zero] at happend
  exact happend.trans (Nat.mul_comm _ _)

theorem ofDigits_zeros_append : ofDigits (List.replicate n '0' ++ ds) = ofDigits ds := by
  have happend := Nat.ofDigitChars_append (b := 10) (l := List.replicate n '0') (m := ds) 0
  rw [Nat.ofDigitChars_replicate_zero, Nat.mul_zero] at happend
  exact happend

theorem isDigit_of_mem_toDigits {c : Char} (h : c ∈ Nat.toDigits 10 n) : c.isDigit = true :=
  Nat.isDigit_of_mem_toDigits (by decide) (by decide) h

theorem toDigits_mul_pow {k : ℕ} (positive : 0 < n) :
    Nat.toDigits 10 (n * 10 ^ k) = Nat.toDigits 10 n ++ List.replicate k '0' := by
  induction k with
  | zero => simp
  | succ k ih =>
    have hge : 10 ≤ n * 10 ^ (k + 1) := by
      have := Nat.mul_pos positive (Nat.pow_pos (n := k) (show 0 < 10 by decide))
      rw [pow_succ, ← Nat.mul_assoc]
      omega
    rw [Nat.toDigits_of_base_le (by decide) hge, pow_succ, ← Nat.mul_assoc,
      Nat.mul_div_cancel _ (by decide), Nat.mul_mod_left, ih, List.append_assoc,
      List.replicate_succ']
    rfl

theorem length_toDigits_bounds {k : ℕ} (length : (Nat.toDigits 10 n).length = k + 1)
    (positive : 0 < n) : 10 ^ k ≤ n ∧ n < 10 ^ (k + 1) := by
  refine ⟨?_, (Nat.length_toDigits_le_iff (by decide) (by omega)).mp length.le⟩
  cases k with
  | zero => exact positive
  | succ k =>
    by_contra hlt
    have := (Nat.length_toDigits_le_iff (b := 10) (by decide) (by omega)).mpr (not_le.mp hlt)
    omega

/-- Behind its sign, a number starts with a digit. -/
theorem splitSign_signed (negative : Bool) (starts : ∃ c ∈ cs.head?, c.isDigit = true) :
    splitSign ((if negative then ['-'] else []) ++ cs) = (negative, cs) := by
  obtain ⟨c, hc, hdigit⟩ := starts
  obtain ⟨rest, rfl⟩ : ∃ rest, cs = c :: rest := by
    cases cs with
    | nil => cases hc
    | cons d rest => exact ⟨rest, by simpa using hc⟩
  have hminus : c ≠ '-' := by rintro rfl; cases hdigit
  have hplus : c ≠ '+' := by rintro rfl; cases hdigit
  cases negative with
  | true => rfl
  | false => simp [splitSign, hminus, hplus]

theorem toList_toString_int (i : ℤ) :
    (toString i).toList = (if i < 0 then ['-'] else []) ++ Nat.toDigits 10 i.natAbs := by
  cases i with
  | ofNat n =>
    rw [if_neg (by simp)]
    exact Nat.toList_repr
  | negSucc n =>
    rw [if_pos (Int.negSucc_lt_zero n)]
    change ("-" ++ (n + 1).repr).toList = _
    rw [String.toList_append, Nat.toList_repr]
    rfl

theorem head?_toDigits : ∃ c ∈ (Nat.toDigits 10 n).head?, c.isDigit = true := by
  cases h : Nat.toDigits 10 n with
  | nil => exact absurd h Nat.toDigits_ne_nil
  | cons c rest => exact ⟨c, rfl, isDigit_of_mem_toDigits (n := n) (by simp [h])⟩

/-- An integer is read back from its digits. -/
theorem readInt?_toString (i : ℤ) : readInt? (toString i).toList = some i := by
  have hall : (Nat.toDigits 10 i.natAbs).all Char.isDigit = true :=
    List.all_eq_true.mpr fun c hc => isDigit_of_mem_toDigits hc
  have hempty : (Nat.toDigits 10 i.natAbs).isEmpty = false := by
    simp [Nat.toDigits_ne_nil]
  have hsign := splitSign_signed (decide (i < 0)) (head?_toDigits (n := i.natAbs))
  simp only [decide_eq_true_eq] at hsign
  rw [toList_toString_int, readInt?, hsign, hall, hempty, ofDigits_toDigits]
  simp only [Bool.not_true, Bool.or_self, Bool.false_eq_true, ↓reduceIte, decide_eq_true_eq,
    Option.some.injEq]
  split <;> omega

theorem readUnsigned?_digits (digits : ∀ c ∈ ds, c.isDigit = true) (some_digit : ds ≠ []) :
    readUnsigned? negative ds = some ⟨negative, ofDigits ds, 0⟩ := by
  have htake : ds.takeWhile Char.isDigit = ds := List.takeWhile_eq_self_iff.mpr digits
  have hdrop : ds.dropWhile Char.isDigit = [] := List.dropWhile_eq_nil_iff.mpr digits
  simp [readUnsigned?, htake, hdrop, splitPlaces, readExponent?, some_digit]

theorem readUnsigned?_point (digits : ∀ c ∈ cs ++ ds, c.isDigit = true) (some_digit : cs ≠ []) :
    readUnsigned? negative (cs ++ '.' :: ds) =
      some ⟨negative, ofDigits (cs ++ ds), -ds.length⟩ := by
  obtain ⟨hcs, hds⟩ := List.forall_mem_append.mp digits
  have hpoint : Char.isDigit '.' = false := by decide
  have htake : (cs ++ '.' :: ds).takeWhile Char.isDigit = cs := by
    rw [List.takeWhile_append_of_pos hcs, List.takeWhile_cons_of_neg (by simp [hpoint]),
      List.append_nil]
  have hdrop : (cs ++ '.' :: ds).dropWhile Char.isDigit = '.' :: ds := by
    rw [List.dropWhile_append_of_pos hcs, List.dropWhile_cons_of_neg (by simp [hpoint])]
  have htake' : ds.takeWhile Char.isDigit = ds := List.takeWhile_eq_self_iff.mpr hds
  have hdrop' : ds.dropWhile Char.isDigit = [] := List.dropWhile_eq_nil_iff.mpr hds
  simp [readUnsigned?, htake, hdrop, splitPlaces, htake', hdrop', readExponent?, some_digit]

/-- The point may stand among the digits or before them, and is read as the places behind it. -/
theorem readUnsigned?_placePoint (digits : ∀ c ∈ ds, c.isDigit = true) (some_digit : ds ≠ []) :
    readUnsigned? negative (placePoint ds places) = some ⟨negative, ofDigits ds, -places⟩ := by
  unfold placePoint
  split
  next h =>
    rw [readUnsigned?_digits digits some_digit, h]
    rfl
  next =>
    split
    next h =>
      have hsplit := List.take_append_drop (ds.length - places) ds
      rw [readUnsigned?_point (by rwa [hsplit]), hsplit, List.length_drop]
      · congr 3
        omega
      · intro hnil
        have := congrArg List.length hnil
        simp only [List.length_take, List.length_nil] at this
        omega
    next h =>
      have hzeros : ∀ c ∈ ['0'] ++ (List.replicate (places - ds.length) '0' ++ ds),
          c.isDigit = true := by
        intro c hc
        simp only [List.mem_append, List.mem_singleton, List.mem_replicate] at hc
        rcases hc with rfl | ⟨-, rfl⟩ | hc
        · rfl
        · rfl
        · exact digits c hc
      refine (readUnsigned?_point hzeros (by simp)).trans ?_
      have hone : ['0'] ++ (List.replicate (places - ds.length) '0' ++ ds) =
          List.replicate (places - ds.length + 1) '0' ++ ds := rfl
      rw [hone, ofDigits_zeros_append, List.length_append, List.length_replicate]
      congr 3
      omega

theorem head?_placePoint (digits : ∀ c ∈ ds, c.isDigit = true) (some_digit : ds ≠ []) :
    ∃ c ∈ (placePoint ds places).head?, c.isDigit = true := by
  obtain ⟨d, rest, rfl⟩ := List.exists_cons_of_ne_nil some_digit
  have hd := digits d (by simp)
  unfold placePoint
  split
  · exact ⟨d, rfl, hd⟩
  · split
    next h =>
      obtain ⟨k, hk⟩ := Nat.exists_eq_succ_of_ne_zero (n := (d :: rest).length - places) (by omega)
      exact ⟨d, by rw [hk]; rfl, hd⟩
    · exact ⟨'0', rfl, rfl⟩

end Reading

namespace Decimal

variable (d : Decimal)

/-- The digits as they are written, with zeros up to the point. -/
theorem digits_written : ∀ c ∈ Nat.toDigits 10 d.digits ++ List.replicate d.exponent.toNat '0',
    c.isDigit = true := by
  intro c hc
  rcases List.mem_append.mp hc with hc | hc
  · exact isDigit_of_mem_toDigits hc
  · rw [(List.mem_replicate.mp hc).2]
    rfl

/-- Writing a decimal and reading it is to write out the zeros before the point. -/
theorem read?_text : Decimal.read? d.text =
    some ⟨d.negative, d.digits * 10 ^ d.exponent.toNat, min d.exponent 0⟩ := by
  have hdigits := d.digits_written
  have hne : Nat.toDigits 10 d.digits ++ List.replicate d.exponent.toNat '0' ≠ [] := by
    simp [Nat.toDigits_ne_nil]
  rw [read?, text, splitSign_signed _ (head?_placePoint hdigits hne),
    readUnsigned?_placePoint hdigits hne, ofDigits_append_zeros, ofDigits_toDigits]
  congr 2
  omega

end Decimal

section Blanks

theorem isBlank_of_written {c : Char} (h : c.isDigit = true ∨ c = '.' ∨ c = '-') :
    isBlank c = false := by
  have happart : CodeRanges.apart [(0x2D, 0x2E), (0x30, 0x39)] blankRanges = true := by decide
  refine CodeRanges.not_has_of_apart happart (CodeRanges.has_iff.mpr ?_)
  rcases h with h | rfl | rfl
  · simp only [Char.isDigit, Bool.and_eq_true, decide_eq_true_eq] at h
    exact ⟨(0x30, 0x39), by simp, h.1, h.2⟩
  · exact ⟨(0x2D, 0x2E), by simp, by decide, by decide⟩
  · exact ⟨(0x2D, 0x2E), by simp, by decide, by decide⟩

theorem trimBlanks_eq_self (solid : ∀ c ∈ cs, isBlank c = false) : trimBlanks cs = cs := by
  have hdrop : ∀ ds : List Char, (∀ c ∈ ds, isBlank c = false) → ds.dropWhile isBlank = ds := by
    intro ds h
    cases ds with
    | nil => rfl
    | cons d ds => exact List.dropWhile_cons_of_neg (by simp [h d])
  rw [trimBlanks, hdrop cs solid, hdrop _ fun c hc => solid c (List.mem_reverse.mp hc),
    List.reverse_reverse]

theorem mem_placePoint {c : Char} (h : c ∈ placePoint ds places) : c ∈ ds ∨ c = '.' ∨ c = '0' := by
  unfold placePoint at h
  split at h
  · exact .inl h
  · split at h
    · rcases List.mem_append.mp h with h | h
      · exact .inl (List.mem_of_mem_take h)
      · rcases List.mem_cons.mp h with h | h
        · exact .inr (.inl h)
        · exact .inl (List.mem_of_mem_drop h)
    · simp only [List.cons_append, List.mem_cons, List.mem_append, List.mem_replicate] at h
      tauto

theorem trimBlanks_toString (i : ℤ) : trimBlanks (toString i).toList = (toString i).toList := by
  refine trimBlanks_eq_self fun c hc => isBlank_of_written ?_
  rw [toList_toString_int] at hc
  rcases List.mem_append.mp hc with hc | hc
  · split at hc <;> simp at hc
    exact .inr (.inr hc)
  · exact .inl (isDigit_of_mem_toDigits hc)

theorem Decimal.trimBlanks_text (d : Decimal) : trimBlanks d.text = d.text := by
  refine trimBlanks_eq_self fun c hc => isBlank_of_written ?_
  rw [text] at hc
  rcases List.mem_append.mp hc with hc | hc
  · split at hc <;> simp at hc
    exact .inr (.inr hc)
  · rcases mem_placePoint hc with hc | rfl | rfl
    · exact .inl (d.digits_written c hc)
    · exact .inr (.inl rfl)
    · exact .inl rfl

end Blanks

end LiveSheet
