import LiveSheet.Proofs.Sheet.Links

namespace LiveSheet

open Relation

namespace Cell

theorem relink_id (id : CellId) (old references : IdSet) (c : Cell) :
    (relink id old references c).id = c.id := by
  unfold relink
  dsimp only
  split_ifs <;> rfl

theorem relink_label (id : CellId) (old references : IdSet) (c : Cell) :
    (relink id old references c).label = c.label := by
  unfold relink
  dsimp only
  split_ifs <;> rfl

theorem relink_core {id : CellId} (old references : IdSet) {c : Cell} (h : c.id ≠ id) :
    (relink id old references c).core = c.core := by
  simp only [relink, h, ↓reduceIte]
  split_ifs <;> rfl

theorem relink_self {id : CellId} (old references : IdSet) {c : Cell} (h : c.id = id) :
    ∃ referencedBy, relink id old references c =
      { c with references := references, referencedBy := referencedBy } := by
  unfold relink
  simp only [h, ↓reduceIte]
  split_ifs
  · exact ⟨_, rfl⟩
  · exact ⟨_, rfl⟩
  · exact ⟨_, rfl⟩

/-- The back references of a cell change by `id`, and only if its references do. -/
theorem mem_relink_referencedBy {id x : CellId} {old references : IdSet} {c : Cell}
    (h : id ∈ c.referencedBy ↔ c.id ∈ old) :
    x ∈ (relink id old references c).referencedBy ↔
      if x = id then c.id ∈ references else x ∈ c.referencedBy := by
  have hb : (relink id old references c).referencedBy =
      if c.id ∈ old.diff references then c.referencedBy.erase id
      else if c.id ∈ references.diff old then c.referencedBy.insert id
      else c.referencedBy := by
    by_cases he : c.id = id <;> simp only [relink, he, ↓reduceIte] <;> split_ifs <;> rfl
  rw [hb]
  by_cases hx : x = id
  · by_cases ho : c.id ∈ old <;> by_cases hr : c.id ∈ references <;> simp [hx, h, ho, hr]
  · split_ifs <;> simp [hx]

end Cell

namespace Edit

variable {e : Edit} {id : CellId} {c : Cell}

theorem setReferences_cell? (hc : e.sheet.cell? id = some c) (references : IdSet) (x : CellId) :
    (e.setReferences id references).sheet.cell? x =
      (e.sheet.cell? x).map (Cell.relink id c.references references) := by
  simp only [setReferences, hc]
  exact Sheet.cell?_of_cells_eq_map rfl (Cell.relink_id id _ _) x

theorem setReferences_roster (e : Edit) (id : CellId) (references : IdSet) :
    (e.setReferences id references).sheet.roster = e.sheet.roster := by
  unfold setReferences
  split
  next => rfl
  next c hc =>
    simp only [Sheet.roster, Sheet.through, List.map_map]
    congr 1
    exact List.map_congr_left fun d _ => Cell.relink_label id _ _ d

theorem setReferences_sameCore (e : Edit) (id : CellId) (references : IdSet) {x : CellId}
    (hx : x ≠ id) : e.sheet.SameCore (e.setReferences id references).sheet x := by
  cases hc : e.sheet.cell? id with
  | none =>
    rw [setReferences, hc]
    exact .of_cell?_eq rfl
  | some c =>
    unfold Sheet.SameCore
    rw [setReferences_cell? hc]
    cases hd : e.sheet.cell? x with
    | none => rfl
    | some d =>
      have hne : d.id ≠ id := by
        rw [Sheet.cell?_id hd]
        exact hx
      simp [Cell.relink_core _ _ hne]

theorem setReferences_cell?_self (hc : e.sheet.cell? id = some c) (references : IdSet) :
    ∃ referencedBy, (e.setReferences id references).sheet.cell? id =
      some { c with references := references, referencedBy := referencedBy } := by
  obtain ⟨referencedBy, h⟩ := Cell.relink_self c.references references (Sheet.cell?_id hc)
  refine ⟨referencedBy, ?_⟩
  rw [setReferences_cell? hc, hc, Option.map_some, h]

theorem setReferences_referencesOf (hc : e.sheet.cell? id = some c) (references : IdSet)
    (x : CellId) : (e.setReferences id references).sheet.referencesOf x =
      if x = id then references.ids else e.sheet.referencesOf x := by
  split
  next h =>
    subst x
    obtain ⟨referencedBy, hself⟩ := setReferences_cell?_self hc references
    rw [Sheet.referencesOf_of_cell? hself]
  next h => exact (setReferences_sameCore e id references h).referencesOf

theorem mem_setReferences_dependentsOf (hc : e.sheet.cell? id = some c)
    (inverse : e.sheet.Mutual) {references : IdSet} {x y : CellId} :
    x ∈ (e.setReferences id references).sheet.dependentsOf y ↔
      if x = id then y ∈ references ∧ y ∈ e.sheet.ids else x ∈ e.sheet.dependentsOf y := by
  have hcell := setReferences_cell? hc references y
  cases hd : e.sheet.cell? y with
  | none =>
    rw [hd] at hcell
    have hl : y ∉ e.sheet.ids := Sheet.not_mem_ids_iff.mpr hd
    simp [Sheet.dependentsOf, hd, hcell, hl]
  | some d =>
    rw [hd] at hcell
    have hl : y ∈ e.sheet.ids := Sheet.mem_ids_iff.mpr ⟨d, hd⟩
    have hold : id ∈ d.referencedBy ↔ d.id ∈ c.references := by
      have hm := inverse id y
      rw [Sheet.referencesOf_of_cell? hc, Sheet.dependentsOf_of_cell? hd] at hm
      rw [Sheet.cell?_id hd]
      exact hm.symm
    rw [Sheet.dependentsOf_of_cell? hcell, Sheet.dependentsOf_of_cell? hd, ← IdSet.mem_iff,
      Cell.mem_relink_referencedBy hold, Sheet.cell?_id hd]
    simp [hl, IdSet.mem_iff]

/-- Back references stay in line with references if the new ones are to cells that exist. -/
theorem setReferences_mutual (hc : e.sheet.cell? id = some c) (inverse : e.sheet.Mutual)
    {references : IdSet} (live : ∀ x ∈ references, x ∈ e.sheet.ids) :
    (e.setReferences id references).sheet.Mutual := by
  intro a b
  rw [setReferences_referencesOf hc, mem_setReferences_dependentsOf hc inverse]
  by_cases ha : a = id
  · simp only [ha, ↓reduceIte]
    exact ⟨fun h => ⟨h, live b h⟩, fun h => h.1⟩
  · simp only [ha, ↓reduceIte]
    exact inverse a b

end Edit

end LiveSheet
