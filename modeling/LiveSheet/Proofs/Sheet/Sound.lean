import LiveSheet.Proofs.Formula.Building
import LiveSheet.Proofs.Sheet.Index
import LiveSheet.Proofs.Sheet.Pass
import LiveSheet.Proofs.Sheet.Relink

namespace LiveSheet

open Relation

namespace Sheet

/-- What holds of a sheet between operations. -/
structure Sound (s : Sheet) : Prop where
  indexed : s.Indexed
  linked : s.Linked
  bound : s.Bound
  classified : s.Classified
  upToDate : ∀ id, s.UpToDate id

/-- The sheet would be sound but for the state of one cell. -/
structure SoundBut (s : Sheet) (id : CellId) : Prop where
  indexed : s.Indexed
  linked : s.Linked
  bound : s.Bound
  deep : s.DeepAt id
  classified : ∀ x c, x ≠ id → s.cell? x = some c → c.isTable = false →
    (c.tree? = none ↔ c.isStructural = true)
  upToDate : ∀ x, x ≠ id → s.UpToDate x

theorem Sound.soundBut {s : Sheet} (h : s.Sound) (id : CellId) : s.SoundBut id :=
  ⟨h.indexed, h.linked, h.bound, (h.upToDate id).deep, fun x c _ => h.classified x c,
    fun x _ => h.upToDate x⟩

/-- The sheets differ in one cell, and elsewhere at most in texts and back references. -/
structure Alters (s t : Sheet) (id : CellId) : Prop where
  roster : t.roster = s.roster
  others : ∀ x, x ≠ id → s.SameCore t x

namespace Alters

variable {s t u : Sheet} {id : CellId}

theorem trans (h : s.Alters t id) (h' : t.Alters u id) : s.Alters u id :=
  ⟨h'.roster.trans h.roster, fun x hx => (h.others x hx).trans (h'.others x hx)⟩

theorem modify {f : Cell → Cell} (hf : ∀ c, (f c).label = c.label) (s : Sheet) (id : CellId) :
    s.Alters (s.modify id f) id := by
  have hid : ∀ c, (f c).id = c.id := by
    intro c
    have hl : (f c).label.id = c.label.id := by rw [hf]
    exact hl
  exact ⟨through_modify hf s id, fun x hx => .of_cell?_eq (cell?_modify_ne hid s hx)⟩

theorem of_within {e e' : Edit} (h : Edit.Within id e e') : e.sheet.Alters e'.sheet id :=
  ⟨roster_eq_of_outline h.outline, fun x hx => .of_cell?_eq (h.others x hx)⟩

theorem setReferences (e : Edit) (id : CellId) (references : IdSet) :
    e.sheet.Alters (e.setReferences id references).sheet id :=
  ⟨Edit.setReferences_roster e id references,
    fun _ hx => Edit.setReferences_sameCore e id references hx⟩

theorem indexed (h : s.Alters t id) (hs : s.Indexed) : t.Indexed :=
  hs.of_roster h.roster.symm

theorem ids_eq (h : s.Alters t id) : t.ids = s.ids :=
  ids_eq_of_roster h.roster

theorem lastId_eq (h : s.Alters t id) : t.lastId = s.lastId := by
  have hl : t.roster.lastId = s.roster.lastId := by rw [h.roster]
  exact hl

theorem refers_iff (h : s.Alters t id) (x : CellId) (hx : x ≠ id) (y : CellId) :
    s.Refers x y ↔ t.Refers x y := by
  change y ∈ s.referencesOf x ↔ y ∈ t.referencesOf x
  rw [(h.others x hx).referencesOf]

theorem reaches_iff (h : s.Alters t id) {x : CellId} (hx : x ≠ id) :
    TransGen s.Refers x id ↔ TransGen t.Refers x id :=
  transGen_target_iff h.refers_iff hx

theorem acyclic (h : s.Alters t id) (hs : Acyclic s.referencesOf)
    (apart : ¬TransGen t.Refers id id) : Acyclic t.referencesOf :=
  hs.redirect h.refers_iff apart

/-- Trees stay bound if the one of the altered cell is. -/
theorem bound (h : s.Alters t id) (hs : s.Bound)
    (here : ∀ c tree, t.cell? id = some c → c.tree? = some tree →
      (∀ x, x ∈ c.references ↔ x ∈ tree.cells ∧ x ∈ s.ids) ∧
        ∀ x ∈ tree.cells, x.number ≤ s.lastId) : t.Bound := by
  have hkeep : ∀ x c tree, x ≠ id → t.cell? x = some c → c.tree? = some tree →
      ∃ d, s.cell? x = some d ∧ d.tree? = some tree ∧ d.references = c.references := by
    intro x c tree hx hc ht
    obtain ⟨d, hd, hcore⟩ := (h.others x hx).cell? hc
    have htree : c.core.tree? = d.core.tree? := by rw [hcore]
    have hrefs : c.core.references = d.core.references := by rw [hcore]
    exact ⟨d, hd, htree.symm.trans ht, hrefs.symm⟩
  refine ⟨fun x c tree hc ht => ?_, fun x c tree hc ht => ?_⟩
  · by_cases hx : x = id
    · subst x
      rw [h.ids_eq]
      exact (here c tree hc ht).1
    · obtain ⟨d, hd, hdt, hr⟩ := hkeep x c tree hx hc ht
      rw [h.ids_eq, ← hr]
      exact hs.references x d tree hd hdt
  · rw [h.lastId_eq]
    by_cases hx : x = id
    · subst x
      exact (here c tree hc ht).2
    · obtain ⟨d, hd, hdt, -⟩ := hkeep x c tree hx hc ht
      exact hs.past x d tree hd hdt

/-- A cell without a tree is bound. -/
theorem bound_of_treeless (h : s.Alters t id) (hs : s.Bound)
    (here : ∀ c, t.cell? id = some c → c.tree? = none) : t.Bound := by
  apply h.bound hs
  intro c tree hc ht
  rw [here c hc] at ht
  cases ht

theorem classified (h : s.Alters t id)
    (hs : ∀ x c, x ≠ id → s.cell? x = some c → c.isTable = false →
      (c.tree? = none ↔ c.isStructural = true))
    (here : ∀ c, t.cell? id = some c → c.isTable = false →
      (c.tree? = none ↔ c.isStructural = true)) : t.Classified := by
  intro x c hc ht
  by_cases hx : x = id
  · subst x
    exact here c hc ht
  · obtain ⟨d, hd, hcore⟩ := (h.others x hx).cell? hc
    have hsame := Cell.sameState_of_core hcore
    rw [← hsame.tree, ← hsame.isStructural]
    exact hs x d hx hd ((Cell.isTable_eq_of_core hcore).symm.trans ht)

/-- A cell that does not depend on the altered one stays up to date. -/
theorem upToDate (h : s.Alters t id) (hs : s.SoundBut id) (live : id ∈ s.ids) {x : CellId}
    (hx : x ≠ id) (apart : ¬TransGen s.Refers x id) : t.UpToDate x :=
  (hs.upToDate x hx).frame h.others hx apart (hs.bound.unnamed live apart)

end Alters

end Sheet

namespace Edit

variable {e e' : Edit} {id : CellId}

/-- What is altered in a cell and then propagated leaves a sound sheet. -/
theorem propagate_sound (alters : e.sheet.Alters e'.sheet id) (sound : e.sheet.SoundBut id)
    (live : id ∈ e.sheet.ids) (linked : e'.sheet.Linked) (bound : e'.sheet.Bound)
    (classified : ∀ c, e'.sheet.cell? id = some c → c.isTable = false →
      (c.tree? = none ↔ c.isStructural = true))
    (upToDate : e'.sheet.UpToDate id) : (e'.propagate id).sheet.Sound := by
  have hothers : ∀ x, ¬TransGen e'.sheet.Refers x id → e'.sheet.UpToDate x := by
    intro x hx
    by_cases hid : x = id
    · exact hid ▸ upToDate
    · exact alters.upToDate sound live hid fun hr => hx ((alters.reaches_iff hid).mp hr)
  obtain ⟨ho, hc, hu⟩ := propagate_upToDate linked bound
    (alters.classified sound.classified classified) hothers
  exact ⟨(alters.indexed sound.indexed).of_roster (Sheet.roster_eq_of_outline ho).symm,
    linked.of_wiring (Sheet.wiring_eq_of_outline ho).symm, bound.of_outline ho.symm, hc, hu⟩

end Edit

end LiveSheet
