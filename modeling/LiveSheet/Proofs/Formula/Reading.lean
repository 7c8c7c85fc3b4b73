import LiveSheet.Proofs.Formula.Renaming

namespace LiveSheet

section Output

variable {r r' : InfixReader} {s : String}

theorem InfixReader.mem_leave {tokens : List Token} {t : Token} (h : t ∈ r.output) :
    t ∈ (r.leave tokens).output := by
  unfold leave drain
  split <;> simp [h]

/-- What is put out stays. -/
theorem InfixReader.output_subset_step {t u : Token} (h : r.step t = .ok r') (hu : u ∈ r.output) :
    u ∈ r'.output := by
  cases t with
  | atom s => cases h; simp [operand, hu]
  | text s => cases h; simp [operand, hu]
  | operator symbol =>
    simp only [step, operator] at h
    split at h
    next => cases h
    next => cases h; simp [hu]
  | openParen => cases h; exact hu
  | closeParen =>
    simp only [step, closeParen] at h
    split at h
    next => cases h
    next => cases h
    next =>
      split_ifs at h
      cases h
      exact mem_leave hu
    next =>
      split_ifs at h
      cases h
      exact mem_leave hu
  | separator =>
    simp only [step, separator] at h
    split_ifs at h
    split at h <;> cases h <;> simp [drain, hu]
  | openBracket =>
    simp only [step, openBracket] at h
    split_ifs at h
    cases h
    exact hu
  | closeBracket =>
    simp only [step, closeBracket] at h
    split at h
    next =>
      split_ifs at h
      cases h
      exact mem_leave hu
    next => cases h
  | _ => cases h

theorem refersTo_eq_true {l : Lexeme} {rest : List Lexeme} (h : refersTo s l rest = true) :
    l.token = .atom s ∧ opensParen rest = false := by
  simpa [refersTo] using h

/-- An atom that stands for a cell is put out. -/
theorem InfixReader.atom_mem_run {ls : List Lexeme} (h : r.run (ls.map Lexeme.token) = .ok r')
    (hs : .atom s ∈ r.output ∨ mentions s ls = true) : .atom s ∈ r'.output := by
  generalize hts : ls.map Lexeme.token = tokens at h
  fun_induction InfixReader.run r tokens generalizing ls with
  | case1 r =>
    obtain rfl := List.map_eq_nil_iff.mp hts
    cases h
    simpa [mentions] using hs
  | case2 r name rest ih =>
    obtain ⟨l, ls', rfl, hl, hrest⟩ := List.map_eq_cons_iff.mp hts
    obtain ⟨l', ls'', rfl, hl', hrest⟩ := List.map_eq_cons_iff.mp hrest
    refine ih (hs.imp_right fun hm => ?_) hrest h
    simpa [mentions, refersTo, opensParen, hl'] using hm
  | case3 r t rest hcall r₁ hstep ih =>
    obtain ⟨l, ls', rfl, rfl, hrest⟩ := List.map_eq_cons_iff.mp hts
    refine ih ?_ hrest h
    rcases hs with hs | hs
    · exact .inl (output_subset_step hstep hs)
    · rw [mentions, Bool.or_eq_true] at hs
      refine hs.imp_left fun hl => ?_
      rw [(refersTo_eq_true hl).1] at hstep
      cases hstep
      simp [operand]
  | case4 => cases h

end Output

section Lengths

variable {old new : String}

/-- Each reference makes the text longer by as much as the new name is longer than the old one. -/
theorem length_renamedText (old new : String) (cs : List Char) : ∃ k,
    (renamedText old new cs).length + k * old.toList.length =
      cs.length + k * new.toList.length := by
  induction cs using scan_induction with
  | blank cs blank =>
    rw [renamedText_of_blank blank]
    exact ⟨0, by simp⟩
  | lead gap c rest blank hc ih =>
    obtain ⟨k, hk⟩ := ih
    have htext := congrArg List.length (leadOf_append c rest)
    rw [renamedText_gap blank hc]
    simp only [List.length_append] at htext ⊢
    split
    next h =>
      have hchars := congrArg List.length (chars_of_atom (refersTo_eq_true h).1)
      refine ⟨k + 1, ?_⟩
      rw [Nat.add_mul, Nat.add_mul]
      omega
    next => exact ⟨k, by omega⟩

/-- Under another name, a text with a reference is another text. -/
theorem renamedText_ne (ne : old ≠ new) (cs : List Char)
    (h : mentions old (scan cs).1 = true) : renamedText old new cs ≠ cs := by
  induction cs using scan_induction with
  | blank cs blank =>
    rw [scan_of_blank blank] at h
    cases h
  | lead gap c rest blank hc ih =>
    intro hsame
    rw [scan_gap blank hc, mentions] at h
    rw [renamedText_gap blank hc, ← leadOf_append c rest] at hsame
    replace hsame := List.append_cancel_left hsame
    split at hsame
    next hrefers =>
      -- The names are as long as each other, or the texts were not.
      obtain ⟨k, hk⟩ := length_renamedText old new (leadOf c rest).rest
      rw [chars_of_atom (refersTo_eq_true hrefers).1] at hsame
      have hlength := congrArg List.length hsame
      simp only [List.length_append] at hlength
      have hmany : (k + 1) * new.toList.length = (k + 1) * old.toList.length := by
        rw [Nat.add_mul, Nat.add_mul]
        omega
      have hsize := Nat.eq_of_mul_eq_mul_left (Nat.succ_pos k) hmany
      exact ne (String.toList_inj.mp (List.append_inj_left hsame hsize)).symm
    next hrefers =>
      have hrest : mentions old (scan (leadOf c rest).rest).1 = true := by simpa [hrefers] using h
      exact ih hrest (List.append_cancel_left hsame)

theorem renameReference?_ne {formula text : String}
    (h : renameReference? formula old new = some text) (ne : old ≠ new) : text ≠ formula := by
  have htext : text = String.ofList (renamedText old new formula.toList) := by
    rw [← renameReference?_getD, h, Option.getD_some]
  unfold renameReference? at h
  dsimp only at h
  split at h
  next hm =>
    intro hsame
    have hlist := congrArg String.toList (htext.symm.trans hsame)
    rw [String.toList_ofList] at hlist
    exact renamedText_ne ne _ hm hlist
  next => cases h

end Lengths

end LiveSheet
