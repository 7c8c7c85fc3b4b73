import LiveSheet.Proofs.Sheet.Waiting

namespace LiveSheet

namespace Sheet

/-- How an operation changes which cells there are and how they are named, and the identities that
it gives to new cells. -/
inductive Enrols (s : Sheet) : List CellId → Sheet → Prop
  | same {t : Sheet} (roster : t.roster = s.roster) : s.Enrols [] t
  | insert {wanted : Option String} {name formula : String} {content : Content} {t u : Sheet}
    (claim : s.claimName wanted = .ok (name, t))
    (roster : u.roster = (t.insertCell name formula content).roster) : s.Enrols [t.nextId] u
  | remove {gone : Cell} {t : Sheet} (roster : t.roster = (s.removeCell gone).roster) :
    s.Enrols [] t
  | relabel {c : Cell} {new : String} {t : Sheet} (hc : s.cell? c.id = some c)
    (valid : isValidName new = true) (free : s.idOf? new = none)
    (roster : t.roster = (s.relabel c.id c.name new).roster) : s.Enrols [] t

variable {s : Sheet} {id : CellId} {e : Edit}

theorem setFormula_roster {formula : String} (h : s.setFormula id formula = .ok e) :
    e.sheet.roster = s.roster := by
  obtain ⟨c, -, -, rfl⟩ := setFormula_eq_ok h
  exact (Edit.applyFormula_roster _ id).trans (roster_setFormula s id formula)

theorem replaceGrid_roster (s : Sheet) (id : CellId) (grid : Grid) :
    (s.replaceGrid id grid).sheet.roster = s.roster :=
  (Edit.propagate_roster _ id).trans
    (Alters.modify (f := fun c => { c with content := .table grid }) (fun _ => rfl) s id).roster

theorem createCell_enrols {wanted formula : Option String}
    (h : s.createCell wanted formula = .ok (id, e)) : s.Enrols [id] e.sheet := by
  obtain ⟨name, t, hclaim, rfl, rfl⟩ := createCell_eq_ok h
  exact .insert hclaim ((Edit.rebind_roster _ name).trans (Edit.applyFormula_roster _ t.nextId))

theorem createTable_enrols {wanted : Option String} {rows cols : Nat}
    (h : s.createTable wanted rows cols = .ok (id, e)) : s.Enrols [id] e.sheet := by
  obtain ⟨name, t, hclaim, rfl, rfl⟩ := createTable_eq_ok h
  exact .insert hclaim (Edit.rebind_roster _ name)

theorem deleteCell_enrols (h : s.deleteCell id = .ok e) : s.Enrols [] e.sheet := by
  obtain ⟨gone, -, -, rfl⟩ := deleteCell_eq_ok h
  exact .remove (roster_eq_of_outline (Edit.outline_refreshAll
    ((s.removeCell gone).unchanged.announce gone.id .deleteRequested)
    ((s.removeCell gone).affectedOrder gone.referencedBy.ids)))

theorem rename_enrols {new : String} (h : s.rename id new = some e) : s.Enrols [] e.sheet := by
  rcases rename_eq_rebind h with rfl | ⟨c, hc, rfl, hvalid, hfree, rfl⟩
  · exact .same rfl
  · exact .relabel hc hvalid hfree ((Edit.rebind_roster _ new).trans (renamedTo_roster s c new))

theorem setTableValue_enrols {row col : Nat} {v : Float}
    (h : s.setTableValue id row col v = .ok e) : s.Enrols [] e.sheet := by
  obtain ⟨c, grid, -, -, rfl⟩ := setTableValue_eq_ok h
  exact .same (replaceGrid_roster s id grid)

theorem resizeTable_enrols {rows cols : Nat} (h : s.resizeTable id rows cols = .ok e) :
    s.Enrols [] e.sheet := by
  obtain ⟨c, grid, -, -, rfl⟩ := resizeTable_eq_ok h
  exact .same (replaceGrid_roster s id grid)

theorem Makes.enrols (h : s.Makes e) : ∃ given, s.Enrols given e.sheet := by
  cases h with
  | createCell h => exact ⟨_, createCell_enrols h⟩
  | createTable h => exact ⟨_, createTable_enrols h⟩
  | deleteCell h => exact ⟨_, deleteCell_enrols h⟩
  | setFormula h => exact ⟨_, .same (setFormula_roster h)⟩
  | rename h => exact ⟨_, rename_enrols h⟩
  | setTableValue h => exact ⟨_, setTableValue_enrols h⟩
  | resizeTable h => exact ⟨_, resizeTable_enrols h⟩

end Sheet

end LiveSheet
