import Mathlib.Data.List.Nodup
import LiveSheet.Sheet.Edit

namespace LiveSheet

namespace Sheet

theorem mem_of_cell? {s : Sheet} {id : CellId} {c : Cell} (h : s.cell? id = some c) :
    c ∈ s.cells ∧ c.id = id :=
  ⟨List.mem_of_find?_eq_some h, by simpa using List.find?_some h⟩

theorem cell?_id {s : Sheet} {id : CellId} {c : Cell} (h : s.cell? id = some c) : c.id = id :=
  (mem_of_cell? h).2

theorem mem_ids_iff {s : Sheet} {id : CellId} : id ∈ s.ids ↔ ∃ c, s.cell? id = some c := by
  constructor
  · intro h
    obtain ⟨c, hc, he⟩ := List.mem_map.mp h
    apply Option.isSome_iff_exists.mp
    exact List.find?_isSome.mpr ⟨c, hc, by simpa using he⟩
  · rintro ⟨c, h⟩
    obtain ⟨hm, he⟩ := mem_of_cell? h
    exact List.mem_map.mpr ⟨c, hm, he⟩

theorem not_mem_ids_iff {s : Sheet} {id : CellId} : id ∉ s.ids ↔ s.cell? id = none := by
  rw [mem_ids_iff, ← Option.isSome_iff_exists, Bool.not_eq_true, Option.isSome_eq_false_iff,
    Option.isNone_iff_eq_none]

theorem cell?_of_mem {s : Sheet} (distinct : s.ids.Nodup) {c : Cell} (h : c ∈ s.cells) :
    s.cell? c.id = some c := by
  obtain ⟨d, hd⟩ := mem_ids_iff.mp (List.mem_map_of_mem (f := Cell.id) h)
  obtain ⟨hm, he⟩ := mem_of_cell? hd
  rw [hd, List.inj_on_of_nodup_map distinct hm h he]

/-- The sheet with every cell replaced by what is seen of it. -/
def through (view : Cell → Cell) (s : Sheet) : Sheet :=
  { s with cells := s.cells.map view }

theorem cell?_of_cells_eq_map {s t : Sheet} {f : Cell → Cell} (h : t.cells = s.cells.map f)
    (hf : ∀ c, (f c).id = c.id) (id : CellId) : t.cell? id = (s.cell? id).map f := by
  simp only [cell?, h, List.find?_map, Function.comp_def, hf]

theorem cell?_through {f : Cell → Cell} (hf : ∀ c, (f c).id = c.id) (s : Sheet)
    (id : CellId) : (s.through f).cell? id = (s.cell? id).map f :=
  cell?_of_cells_eq_map rfl hf id

theorem through_through (f g : Cell → Cell) (s : Sheet) :
    (s.through f).through g = s.through (g ∘ f) := by
  simp [through]

theorem ids_through {view : Cell → Cell} (hv : ∀ c, (view c).id = c.id) (s : Sheet) :
    (s.through view).ids = s.ids := by
  simp [through, ids, hv]

theorem through_modify {view f : Cell → Cell} (hf : ∀ c, view (f c) = view c) (s : Sheet)
    (id : CellId) : (s.modify id f).through view = s.through view := by
  simp only [through, modify, List.map_map]
  congr 1
  apply List.map_congr_left
  intro c _
  by_cases h : c.id = id
  · simp [h, hf]
  · simp [h]

theorem ids_modify {f : Cell → Cell} (hf : ∀ c, (f c).id = c.id) (s : Sheet) (id : CellId) :
    (s.modify id f).ids = s.ids := by
  simp only [ids, modify, List.map_map]
  apply List.map_congr_left
  intro c _
  by_cases h : c.id = id
  · simp [h, hf]
  · simp [h]

theorem cell?_modify_self {f : Cell → Cell} (hf : ∀ c, (f c).id = c.id) (s : Sheet)
    (id : CellId) : (s.modify id f).cell? id = (s.cell? id).map f := by
  rw [cell?_of_cells_eq_map (s := s) rfl (by intro c; split <;> simp [hf])]
  cases h : s.cell? id with
  | none => rfl
  | some c => simp [cell?_id h]

theorem cell?_modify_ne {f : Cell → Cell} (hf : ∀ c, (f c).id = c.id) (s : Sheet)
    {id x : CellId} (hx : x ≠ id) : (s.modify id f).cell? x = s.cell? x := by
  rw [cell?_of_cells_eq_map (s := s) rfl (by intro c; split <;> simp [hf])]
  cases h : s.cell? x with
  | none => rfl
  | some c => simp [cell?_id h, hx]

end Sheet

/-- What a cell is known by. -/
def Cell.label (c : Cell) : Cell :=
  Cell.new c.id c.name "" (.formula none)

/-- The direct references of a cell, in both directions. -/
def Cell.links (c : Cell) : Cell :=
  { Cell.new c.id "" "" (.formula none) with
    references := c.references, referencedBy := c.referencedBy }

/-- The cell without what recomputing it may change. -/
def Cell.outline (c : Cell) : Cell :=
  { c with value := default, error := none, deep := ∅ }

/-- The cell without what only its formula and its dependents are known by. -/
def Cell.core (c : Cell) : Cell :=
  { c with name := "", formula := "", referencedBy := ∅, unresolved := [] }

theorem Cell.tree?_eq_of_outline {c d : Cell} (h : c.outline = d.outline) :
    c.tree? = d.tree? := by
  have ht : c.outline.tree? = d.outline.tree? := by rw [h]
  exact ht

theorem Cell.isTable_eq_of_outline {c d : Cell} (h : c.outline = d.outline) :
    c.isTable = d.isTable := by
  have ht : c.outline.isTable = d.outline.isTable := by rw [h]
  exact ht

theorem Cell.isTable_eq_of_core {c d : Cell} (h : c.core = d.core) : c.isTable = d.isTable := by
  have ht : c.core.isTable = d.core.isTable := by rw [h]
  exact ht

namespace Sheet

/-- Which cells there are and how they are named. -/
def roster (s : Sheet) : Sheet :=
  s.through Cell.label

/-- Which cells refer to which. -/
def wiring (s : Sheet) : Sheet :=
  { Sheet.new .default with cells := s.cells.map Cell.links }

theorem cell?_wiring (s : Sheet) (id : CellId) : s.wiring.cell? id = (s.cell? id).map Cell.links :=
  cell?_of_cells_eq_map (f := Cell.links) rfl (fun _ => rfl) id

theorem wiring_through {view : Cell → Cell} (hv : ∀ c, (view c).links = c.links) (s : Sheet) :
    (s.through view).wiring = s.wiring := by
  simp [wiring, through, hv]

theorem wiring_modify {f : Cell → Cell} (hf : ∀ c, (f c).links = c.links) (s : Sheet)
    (id : CellId) : (s.modify id f).wiring = s.wiring := by
  have hm := congrArg Sheet.cells (through_modify hf s id)
  simp only [through] at hm
  rw [wiring, wiring, hm]

/-- The sheet without what recomputing its cells may change. -/
def outline (s : Sheet) : Sheet :=
  s.through Cell.outline

theorem roster_eq_of_outline {s t : Sheet} (h : s.outline = t.outline) : s.roster = t.roster := by
  have hr : ∀ u : Sheet, u.roster = u.outline.roster := fun u =>
    (through_through Cell.outline Cell.label u).symm
  rw [hr s, hr t, h]

theorem wiring_eq_of_outline {s t : Sheet} (h : s.outline = t.outline) : s.wiring = t.wiring := by
  have hw : ∀ u : Sheet, u.outline.wiring = u.wiring := wiring_through fun _ => rfl
  rw [← hw s, ← hw t, h]

theorem ids_eq_of_roster {s t : Sheet} (h : s.roster = t.roster) : s.ids = t.ids := by
  have hi : ∀ u : Sheet, u.roster.ids = u.ids := ids_through fun _ => rfl
  rw [← hi s, ← hi t, h]

theorem names_eq_of_roster {s t : Sheet} (h : s.roster = t.roster) : s.names = t.names := by
  have hn : s.roster.names = t.roster.names := by rw [h]
  exact hn

theorem ids_eq_of_wiring {s t : Sheet} (h : s.wiring = t.wiring) : s.ids = t.ids := by
  have hi : ∀ u : Sheet, u.wiring.ids = u.ids := by simp [wiring, ids, Cell.links, Cell.new]
  rw [← hi s, ← hi t, h]

theorem referencesOf_eq_of_wiring {s t : Sheet} (h : s.wiring = t.wiring) :
    s.referencesOf = t.referencesOf := by
  have hr : ∀ u : Sheet, u.wiring.referencesOf = u.referencesOf := by
    intro u
    funext id
    simp only [referencesOf, cell?_wiring]
    cases u.cell? id <;> rfl
  rw [← hr s, ← hr t, h]

theorem dependentsOf_eq_of_wiring {s t : Sheet} (h : s.wiring = t.wiring) :
    s.dependentsOf = t.dependentsOf := by
  have hd : ∀ u : Sheet, u.wiring.dependentsOf = u.dependentsOf := by
    intro u
    funext id
    simp only [dependentsOf, cell?_wiring]
    cases u.cell? id <;> rfl
  rw [← hd s, ← hd t, h]

/-- The sheets have the same cell under an identity, up to names, texts and back references. -/
def SameCore (s t : Sheet) (id : CellId) : Prop :=
  (t.cell? id).map Cell.core = (s.cell? id).map Cell.core

theorem SameCore.of_cell?_eq {s t : Sheet} {id : CellId} (h : t.cell? id = s.cell? id) :
    s.SameCore t id :=
  congrArg (Option.map Cell.core) h

theorem SameCore.trans {s t u : Sheet} {id : CellId} (h : s.SameCore t id)
    (h' : t.SameCore u id) : s.SameCore u id :=
  Eq.trans h' h

theorem SameCore.cell? {s t : Sheet} {id : CellId} (h : s.SameCore t id) {d : Cell}
    (hd : t.cell? id = some d) : ∃ c, s.cell? id = some c ∧ d.core = c.core := by
  unfold SameCore at h
  rw [hd] at h
  obtain ⟨c, hc, he⟩ := Option.map_eq_some_iff.mp h.symm
  exact ⟨c, hc, he.symm⟩

theorem SameCore.referencesOf {s t : Sheet} {id : CellId} (h : s.SameCore t id) :
    t.referencesOf id = s.referencesOf id := by
  have hr : ∀ u : Sheet, u.referencesOf id =
      ((u.cell? id).map Cell.core).elim [] fun c => c.references.ids := by
    intro u
    unfold Sheet.referencesOf
    cases u.cell? id <;> rfl
  rw [hr s, hr t, h]

/-- Sheets that look the same have the same cells, up to how these look. -/
theorem cell?_of_through_eq (view : Cell → Cell) (hv : ∀ c, (view c).id = c.id) {s t : Sheet}
    (h : s.through view = t.through view) {id : CellId} {c : Cell} (hc : s.cell? id = some c) :
    ∃ d, t.cell? id = some d ∧ view d = view c := by
  have ht : (t.cell? id).map view = (s.cell? id).map view := by
    rw [← cell?_through hv t, ← cell?_through hv s, h]
  rw [hc] at ht
  exact Option.map_eq_some_iff.mp ht

theorem cell?_outline {s t : Sheet} (h : s.outline = t.outline) {id : CellId} {c : Cell}
    (hc : s.cell? id = some c) : ∃ d, t.cell? id = some d ∧ d.outline = c.outline :=
  cell?_of_through_eq Cell.outline (fun _ => rfl) h hc

end Sheet

end LiveSheet
