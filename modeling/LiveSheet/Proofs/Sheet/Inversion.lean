import LiveSheet.Proofs.Sheet.Index

namespace LiveSheet

namespace Sheet

variable {s : Sheet} {id : CellId} {e : Edit}

theorem createCell_eq_ok {wanted formula : Option String}
    (h : s.createCell wanted formula = .ok (id, e)) :
    ∃ name t, s.claimName wanted = .ok (name, t) ∧ id = t.nextId ∧
      e = ((t.insertCell name (formula.getD t.settings.defaultFormula)
        (.formula none)).unchanged.applyFormula t.nextId).rebind name := by
  unfold createCell at h
  split at h
  next => cases h
  next name t hclaim =>
    cases h
    exact ⟨name, t, hclaim, rfl, rfl⟩

theorem createCell_of_free {name : String} (valid : isValidName name = true)
    (free : s.idOf? name = none) (formula : String) :
    s.createCell (some name) (some formula) = .ok (s.nextId,
      ((s.insertCell name formula (.formula none)).unchanged.applyFormula s.nextId).rebind
        name) := by
  simp only [createCell, claimName, valid, free, Bool.not_true, Bool.false_eq_true,
    Option.isSome_none, ↓reduceIte, Option.getD_some]

theorem createTable_eq_ok {wanted : Option String} {rows cols : Nat}
    (h : s.createTable wanted rows cols = .ok (id, e)) :
    ∃ name t, s.claimName wanted = .ok (name, t) ∧ id = t.nextId ∧
      e = (t.insertCell name "" (.table (Grid.zeros rows cols))).unchanged.rebind name := by
  unfold createTable at h
  split at h
  next => cases h
  next name t hclaim =>
    cases h
    exact ⟨name, t, hclaim, rfl, rfl⟩

theorem deleteCell_eq_ok (h : s.deleteCell id = .ok e) : ∃ gone, gone.id = id ∧
    s.cell? gone.id = some gone ∧
    e = ((s.removeCell gone).unchanged.announce gone.id .deleteRequested).refreshAll
      ((s.removeCell gone).affectedOrder gone.referencedBy.ids) := by
  unfold deleteCell cell at h
  cases hg : s.cell? id with
  | none => simp [hg] at h
  | some gone =>
    simp only [hg, Except.ok.injEq] at h
    obtain rfl := cell?_id hg
    exact ⟨gone, rfl, hg, h.symm⟩

theorem setFormula_eq_ok {formula : String} (h : s.setFormula id formula = .ok e) :
    ∃ c, s.cell? id = some c ∧ c.isTable = false ∧
      e = (s.unchanged.setFormula id formula).applyFormula id := by
  unfold setFormula cell at h
  cases hc : s.cell? id with
  | none => simp [hc] at h
  | some c =>
    simp only [hc] at h
    split at h
    next => cases h
    next ht =>
      cases h
      exact ⟨c, rfl, by simpa using ht, rfl⟩

theorem rename_eq_some {new : String} (h : s.rename id new = some e) :
    e = s.unchanged ∨ ∃ c, s.cell? id = some c ∧ isValidName new = true ∧
      s.idOf? new = none ∧ e = ((s.mayMention c).ids.foldl (renameMentions c.name new)
        ((s.relabel id c.name new).unchanged.announce id (.nameChanged c.name new))).rebind
          new := by
  unfold rename at h
  split at h
  next => cases h
  next c hc =>
    split_ifs at h with hn hv
    · exact .inl (Option.some.inj h).symm
    · simp only [Bool.or_eq_true, not_or, Bool.not_eq_true, Bool.not_eq_false'] at hv
      exact .inr ⟨c, hc, hv.1, by simpa using hv.2, (Option.some.inj h).symm⟩

theorem table_eq_ok {grid : Grid} (h : s.table id = .ok grid) :
    ∃ c, s.cell? id = some c ∧ c.grid? = some grid := by
  unfold table cell at h
  cases hc : s.cell? id with
  | none => simp [hc] at h
  | some c =>
    simp only [hc] at h
    split at h
    next g hg =>
      cases h
      exact ⟨c, rfl, hg⟩
    next => cases h

/-- Changing a table replaces its grid. -/
theorem setTableValue_eq_ok {row col : Nat} {v : Float}
    (h : s.setTableValue id row col v = .ok e) :
    ∃ c grid, s.cell? id = some c ∧ c.isTable = true ∧ e = s.replaceGrid id grid := by
  unfold setTableValue at h
  split at h
  next => cases h
  next grid hg =>
    obtain ⟨c, hc, hgrid⟩ := table_eq_ok hg
    split at h
    next grid' _ =>
      cases h
      exact ⟨c, grid', hc, by simp [Cell.isTable, hgrid], rfl⟩
    next => cases h

theorem resizeTable_eq_ok {rows cols : Nat} (h : s.resizeTable id rows cols = .ok e) :
    ∃ c grid, s.cell? id = some c ∧ c.isTable = true ∧ e = s.replaceGrid id grid := by
  unfold resizeTable at h
  split at h
  next => cases h
  next grid hg =>
    obtain ⟨c, hc, hgrid⟩ := table_eq_ok hg
    cases h
    exact ⟨c, grid.resize rows cols, hc, by simp [Cell.isTable, hgrid], rfl⟩

end Sheet

end LiveSheet
