import LiveSheet.Formula.Compile

namespace LiveSheet

/-- No range of one set meets a range of the other. -/
def CodeRanges.apart (a b : CodeRanges) : Bool :=
  a.all fun r => b.all fun q => r.2 < q.1 || q.2 < r.1

theorem CodeRanges.not_has_of_apart {a b : CodeRanges} (h : a.apart b = true) {c : Char}
    (hc : a.has c = true) : b.has c = false := by
  obtain ⟨r, hr, hr₁, hr₂⟩ := has_iff.mp hc
  apply Bool.eq_false_iff.mpr
  intro hb
  obtain ⟨q, hq, hq₁, hq₂⟩ := has_iff.mp hb
  have hrq := List.all_eq_true.mp (List.all_eq_true.mp h r hr) q hq
  simp only [Bool.or_eq_true, decide_eq_true_eq] at hrq
  omega

/-- The characters that end an atom, apart from blanks. -/
def markRanges : CodeRanges :=
  [(0x21, 0x22), (0x26, 0x26), (0x28, 0x2B), (0x2D, 0x2D), (0x2F, 0x2F), (0x3B, 0x3E),
    (0x5B, 0x5B), (0x5D, 0x5D), (0x7C, 0x7C)]

theorem letterRanges_apart : letterRanges.apart (markRanges ++ blankRanges) = true := by
  decide +kernel

theorem numeralRanges_apart : numeralRanges.apart (markRanges ++ blankRanges) = true := by
  decide +kernel

theorem letterRanges_apart_digits : letterRanges.apart [(0x2E, 0x2E), (0x30, 0x39)] = true := by
  decide +kernel

theorem has_of_isBoundary {c : Char} (h : isBoundary c = true) :
    CodeRanges.has (markRanges ++ blankRanges) c = true := by
  have happend : ∀ a b : CodeRanges, CodeRanges.has (a ++ b) c = (a.has c || b.has c) :=
    fun a b => List.any_append
  have hall : (['+', '-', '*', '/', '<', '>', '=', '!', '&', '|'] ++
      ['(', ')', '[', ']', '"', ';']).all markRanges.has = true := by decide
  have hmarks := List.all_eq_true.mp hall
  rw [happend, Bool.or_eq_true]
  simp only [isBoundary, Bool.or_eq_true] at h
  rcases h with (h | h) | h
  · exact .inr h
  · exact .inl (hmarks c (List.mem_append_left _ (List.contains_iff_mem.mp h)))
  · exact .inl (hmarks c (List.mem_append_right _ (List.contains_iff_mem.mp h)))

/-- A name does not end an atom. -/
theorem isBoundary_of_isNameChar {c : Char} (h : isNameChar c = true) : isBoundary c = false := by
  apply Bool.eq_false_iff.mpr
  intro hb
  have hr := has_of_isBoundary hb
  simp only [isNameChar, Bool.or_eq_true, decide_eq_true_eq] at h
  rcases h with ((h | h) | rfl) | rfl
  · rw [CodeRanges.not_has_of_apart letterRanges_apart h] at hr
    cases hr
  · rw [CodeRanges.not_has_of_apart numeralRanges_apart h] at hr
    cases hr
  · revert hb
    decide
  · revert hb
    decide

theorem isNameChar_of_isNameStart {c : Char} (h : isNameStart c = true) : isNameChar c = true := by
  simp only [isNameStart, Bool.or_eq_true] at h
  simp only [isNameChar, Bool.or_eq_true]
  rcases h with h | h
  · exact .inl (.inl (.inl h))
  · exact .inl (.inr h)

theorem isBoundary_of_isNameStart {c : Char} (h : isNameStart c = true) : isBoundary c = false :=
  isBoundary_of_isNameChar (isNameChar_of_isNameStart h)

theorem startsNumber_of_isNameStart {c : Char} (h : isNameStart c = true) :
    startsNumber c = false := by
  apply Bool.eq_false_iff.mpr
  intro hn
  have hr : CodeRanges.has [(0x2E, 0x2E), (0x30, 0x39)] c = true := by
    simp only [startsNumber, Char.isDigit, Bool.or_eq_true, Bool.and_eq_true,
      decide_eq_true_eq] at hn
    rcases hn with ⟨h₁, h₂⟩ | rfl
    · apply CodeRanges.has_iff.mpr
      exact ⟨(0x30, 0x39), by simp, h₁, h₂⟩
    · decide
  simp only [isNameStart, Bool.or_eq_true, decide_eq_true_eq] at h
  rcases h with h | rfl
  · rw [CodeRanges.not_has_of_apart letterRanges_apart_digits h] at hr
    cases hr
  · revert hr
    decide

theorem toLower_of_isDigit {c : Char} (h : c.isDigit = true) : c.toLower = c := by
  simp only [Char.isDigit, Bool.and_eq_true, decide_eq_true_eq] at h
  have hupper : ¬(65 ≤ c.val ∧ c.val ≤ 90) := by
    rintro ⟨hlow, -⟩
    have hlt := UInt32.le_trans hlow h.2
    revert hlt
    decide
  exact dif_neg hupper

/-- A name is a letter or underscore and more characters, of which none ends an atom. -/
theorem toList_of_isValidName {name : String} (h : isValidName name = true) :
    ∃ c rest, name.toList = c :: rest ∧ isNameStart c = true ∧
      (∀ d ∈ rest, isBoundary d = false) ∧ isBooleanWord (c :: rest) = false := by
  unfold isValidName at h
  split at h
  next => cases h
  next c rest hcs =>
    simp only [Bool.and_eq_true, Bool.not_eq_true'] at h
    refine ⟨c, rest, hcs, h.1.1, fun d hd => ?_, h.2⟩
    exact isBoundary_of_isNameChar (List.all_eq_true.mp h.1.2 d hd)

/-- A name is a reference to the cell that it belongs to. -/
theorem classifyAtom_name (resolve : Resolver) {name : String} (h : isValidName name = true) :
    classifyAtom resolve name = match resolve name with
      | some id => .ok (.cell ⟨id, name⟩)
      | none => .error (.unknownCell name) := by
  obtain ⟨c, rest, hcs, hstart, -, hword⟩ := toList_of_isValidName h
  have hquote : c ≠ '"' := by
    rintro rfl
    cases isBoundary_of_isNameStart hstart
  rw [isBooleanWord, Bool.or_eq_false_iff] at hword
  obtain ⟨htrue, hfalse⟩ := hword
  have hnumber := startsNumber_of_isNameStart hstart
  cases hr : resolve name <;>
    simp only [classifyAtom, hcs, List.head?_cons, Option.any_some, hquote, htrue, hfalse,
      hnumber, h, hr, decide_false, Bool.not_true, Bool.false_eq_true, ↓reduceIte]

theorem classifyAtom_of_isValidName {resolve : Resolver} {name : String} {id : CellId}
    (h : isValidName name = true) (hr : resolve name = some id) :
    classifyAtom resolve name = .ok (.cell ⟨id, name⟩) := by
  rw [classifyAtom_name resolve h, hr]

theorem classifyAtom_of_unknown {resolve : Resolver} {name : String}
    (h : isValidName name = true) (hr : resolve name = none) :
    classifyAtom resolve name = .error (.unknownCell name) := by
  rw [classifyAtom_name resolve h, hr]

end LiveSheet
