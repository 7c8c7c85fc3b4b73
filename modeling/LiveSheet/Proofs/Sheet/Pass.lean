import LiveSheet.Proofs.Sheet.Recompute

namespace LiveSheet

open Relation

theorem Cell.tree?_of_isTable {c : Cell} (h : c.isTable = true) : c.tree? = none := by
  unfold Cell.isTable Cell.grid? at h
  unfold Cell.tree?
  cases hc : c.content with
  | formula tree => simp [hc] at h
  | table grid => rfl

namespace Sheet

/-- A tree names the references of its cell, and otherwise cells that are gone. -/
structure Bound (s : Sheet) : Prop where
  references : ∀ id c tree, s.cell? id = some c → c.tree? = some tree →
    ∀ x, x ∈ c.references ↔ x ∈ tree.cells ∧ x ∈ s.ids
  past : ∀ id c tree, s.cell? id = some c → c.tree? = some tree →
    ∀ x ∈ tree.cells, x.number ≤ s.lastId

/-- Formula cells without a tree are those with a structural error. -/
def Classified (s : Sheet) : Prop :=
  ∀ id c, s.cell? id = some c → c.isTable = false → (c.tree? = none ↔ c.isStructural = true)

structure UpToDate (s : Sheet) (id : CellId) : Prop where
  deep : s.DeepAt id
  settled : ∀ c, s.cell? id = some c → c.isTable = false → s.Settled c

theorem lastId_eq_of_outline {s t : Sheet} (h : s.outline = t.outline) : s.lastId = t.lastId := by
  have hl : s.outline.lastId = t.outline.lastId := by rw [h]
  exact hl

theorem Bound.of_outline {s t : Sheet} (hs : s.Bound) (h : s.outline = t.outline) : t.Bound := by
  have hids := ids_eq_of_wiring (wiring_eq_of_outline h)
  have hlast := lastId_eq_of_outline h
  refine ⟨?_, ?_⟩
  · intro id c tree hc ht x
    obtain ⟨d, hd, ho⟩ := cell?_outline h.symm hc
    have hr : d.outline.references = c.outline.references := by rw [ho]
    have ht' : d.tree? = c.tree? := Cell.tree?_eq_of_outline ho
    change d.references = c.references at hr
    rw [← hr, ← hids]
    exact hs.references id d tree hd (ht'.trans ht) x
  · intro id c tree hc ht x hx
    obtain ⟨d, hd, ho⟩ := cell?_outline h.symm hc
    have ht' : d.tree? = c.tree? := Cell.tree?_eq_of_outline ho
    rw [← hlast]
    exact hs.past id d tree hd (ht'.trans ht) x hx

/-- A tree names no cell that its own cell does not depend on, if that cell exists. -/
theorem Bound.refers {s : Sheet} (h : s.Bound) {id x : CellId} {c : Cell} {tree : Expr}
    (hc : s.cell? id = some c) (ht : c.tree? = some tree) (hx : x ∈ tree.cells)
    (hl : x ∈ s.ids) : s.Refers id x := by
  change x ∈ s.referencesOf id
  rw [referencesOf_of_cell? hc]
  exact (h.references id c tree hc ht x).mpr ⟨hx, hl⟩

/-- A cell stays up to date if it keeps its core and what it depends on looks the same. -/
theorem UpToDate.congr {s t : Sheet} {x : CellId} (h : s.UpToDate x) (same : s.SameCore t x)
    (reach : ∀ y, TransGen t.Refers x y ↔ TransGen s.Refers x y)
    (faces : ∀ y, TransGen s.Refers x y → s.SameFace t y)
    (named : ∀ c tree, s.cell? x = some c → c.tree? = some tree →
      ∀ y ∈ tree.cells, s.SameFace t y) : t.UpToDate x := by
  refine ⟨?_, ?_⟩
  · intro y
    rw [same.deepOf, reach]
    exact h.deep y
  · intro d hd ht
    obtain ⟨c, hc, hcd⟩ := same.cell? hd
    apply (h.settled c hc ((Cell.isTable_eq_of_core hcd).symm.trans ht)).congr
      (Cell.sameState_of_core hcd)
    · exact fun y hy => faces y ((h.deep.mem_deep hc).mp hy)
    · intro tree htree
      exact named c tree hc htree

/-- A change in one cell leaves those up to date that do not depend on it. -/
theorem UpToDate.frame {s t : Sheet} {id x : CellId} (h : s.UpToDate x)
    (others : ∀ y, y ≠ id → s.SameCore t y) (hx : x ≠ id) (apart : ¬TransGen s.Refers x id)
    (unnamed : ∀ c tree, s.cell? x = some c → c.tree? = some tree → id ∉ tree.cells) :
    t.UpToDate x := by
  apply h.congr (others x hx)
  · intro y
    refine (transGen_iff_of_apart ?_ hx apart).symm
    intro a ha b
    change b ∈ _ ↔ b ∈ _
    rw [(others a ha).referencesOf]
  · intro y hy
    exact (others y fun he => apart (he ▸ hy)).sameFace
  · intro c tree hc ht y hy
    exact (others y fun he => unnamed c tree hc ht (he ▸ hy)).sameFace

theorem Bound.unnamed {s : Sheet} (h : s.Bound) {id x : CellId} (live : id ∈ s.ids)
    (apart : ¬TransGen s.Refers x id) (c : Cell) (tree : Expr) (hc : s.cell? x = some c)
    (ht : c.tree? = some tree) : id ∉ tree.cells :=
  fun hm => apart (.single (h.refers hc ht hm live))

theorem upToDate_of_not_mem {s : Sheet} {x : CellId} (h : x ∉ s.ids) : s.UpToDate x := by
  have hn := not_mem_ids_iff.mp h
  refine ⟨fun y => ?_, fun c hc => ?_⟩
  · simp only [deepOf, hn, Option.elim_none, IdSet.not_mem_empty, false_iff]
    intro hr
    obtain ⟨z, hz, -⟩ := TransGen.head'_iff.mp hr
    exact h (mem_ids_of_mem_referencesOf hz)
  · rw [hn] at hc
    cases hc

end Sheet

namespace Edit

variable {e : Edit} {id : CellId}

theorem Within.frame {e' : Edit} (hw : Within id e e') {x : CellId} (h : e.sheet.UpToDate x)
    (bound : e.sheet.Bound) (hx : x ≠ id) (apart : ¬TransGen e.sheet.Refers x id) :
    e'.sheet.UpToDate x := by
  have hothers : ∀ y, y ≠ id → e.sheet.SameCore e'.sheet y :=
    fun y hy => .of_cell?_eq (hw.others y hy)
  by_cases hl : id ∈ e.sheet.ids
  · exact h.frame hothers hx apart (bound.unnamed hl apart)
  · have hids := Sheet.ids_eq_of_wiring (Sheet.wiring_eq_of_outline hw.outline)
    have hid : e.sheet.SameCore e'.sheet id := by
      apply Sheet.SameCore.of_cell?_eq
      rw [Sheet.not_mem_ids_iff.mp hl, Sheet.not_mem_ids_iff.mp (hids ▸ hl)]
    have hall : ∀ y, e.sheet.SameCore e'.sheet y := by
      intro y
      by_cases hy : y = id
      · exact hy ▸ hid
      · exact hothers y hy
    apply h.congr (hall x)
    · intro y
      rw [Sheet.Refers, Sheet.Refers, Sheet.referencesOf_eq_of_wiring
        (Sheet.wiring_eq_of_outline hw.outline)]
    · exact fun y _ => (hall y).sameFace
    · exact fun _ _ _ _ y _ => (hall y).sameFace

theorem refresh_cell? {c : Cell} (hc : e.sheet.cell? id = some c)
    (classified : e.sheet.Classified) :
    ∃ d, (e.refresh id).sheet.cell? id = some d ∧ d.deep = e.sheet.collectDeep id ∧
      d.content = c.content ∧ d.isStructural = c.isStructural := by
  have hc' := setDeep_cell? hc (e.sheet.collectDeep id)
  by_cases ht : c.isTable = true
  · have htree : c.tree? = none := Cell.tree?_of_isTable ht
    rw [refresh, recompute_of_treeless hc' htree]
    exact ⟨_, hc', rfl, rfl, rfl⟩
  · have hcl := classified id c hc (by simpa using ht)
    obtain ⟨d, hd, hdd, hdc, hds, -⟩ := recompute_cell? hc' hcl
    exact ⟨d, hd, hdd, hdc, hds⟩

theorem refresh_settled {d : Cell} (hd : (e.refresh id).sheet.cell? id = some d)
    (ht : d.isTable = false) (linked : e.sheet.Linked) (bound : e.sheet.Bound)
    (classified : e.sheet.Classified) (deep : ∀ r ∈ e.sheet.referencesOf id, e.sheet.DeepAt r) :
    (e.refresh id).sheet.Settled d := by
  obtain ⟨c, hc, ho⟩ := Sheet.cell?_outline (within_refresh e id).outline hd
  have htable : c.isTable = false := (Cell.isTable_eq_of_outline ho).trans ht
  have hself : id ∉ e.sheet.collectDeep id := by
    rw [Sheet.mem_collectDeep_iff deep]
    exact linked.acyclic id
  have hnamed : ∀ tree, c.tree? = some tree → id ∉ tree.cells := by
    intro tree htree hm
    have hl : id ∈ e.sheet.ids := Sheet.mem_ids_iff.mpr ⟨c, hc⟩
    exact linked.acyclic.not_mem_self id (bound.refers hc htree hm hl)
  obtain ⟨d', hd', -, -, -, hset⟩ := recompute_settled
    (setDeep_cell? hc (e.sheet.collectDeep id)) (classified id c hc htable) hself hnamed
  obtain rfl : d' = d := Option.some.inj (hd'.symm.trans hd)
  exact hset

theorem refresh_classified (classified : e.sheet.Classified) :
    (e.refresh id).sheet.Classified := by
  intro x d hd ht
  have hw := within_refresh e id
  by_cases hx : x = id
  · subst x
    obtain ⟨c, hc, ho⟩ := Sheet.cell?_outline hw.outline hd
    obtain ⟨d', hd', -, -, hs⟩ := refresh_cell? hc classified
    obtain rfl : d' = d := Option.some.inj (hd'.symm.trans hd)
    have htree : c.tree? = d'.tree? := Cell.tree?_eq_of_outline ho
    rw [← htree, hs]
    exact classified id c hc ((Cell.isTable_eq_of_outline ho).trans ht)
  · rw [hw.others x hx] at hd
    exact classified x d hd ht

theorem refresh_upToDate (linked : e.sheet.Linked) (bound : e.sheet.Bound)
    (classified : e.sheet.Classified) (deep : ∀ r ∈ e.sheet.referencesOf id, e.sheet.DeepAt r) :
    (e.refresh id).sheet.UpToDate id := by
  have hw := within_refresh e id
  have hwire := Sheet.wiring_eq_of_outline hw.outline
  cases hc : e.sheet.cell? id with
  | none =>
    apply Sheet.upToDate_of_not_mem
    rw [Sheet.ids_eq_of_wiring hwire]
    exact Sheet.not_mem_ids_iff.mpr hc
  | some c =>
    obtain ⟨d, hd, hdeep, -, -⟩ := refresh_cell? hc classified
    refine ⟨fun x => ?_, fun d' hd' ht => refresh_settled hd' ht linked bound classified deep⟩
    rw [Sheet.deepOf_of_cell? hd, hdeep, Sheet.mem_collectDeep_iff deep, Sheet.Refers,
      Sheet.Refers, Sheet.referencesOf_eq_of_wiring hwire]

/-- Refreshing cells, each after those that it depends on, and all that depend on them, brings the
whole sheet up to date. -/
theorem refreshAll_upToDate {order : List CellId} (linked : e.sheet.Linked)
    (bound : e.sheet.Bound) (classified : e.sheet.Classified)
    (sorted : order.Pairwise fun a b => a ∉ e.sheet.dependentsOf b)
    (closed : ∀ x ∈ order, ∀ y ∈ e.sheet.dependentsOf x, y ∈ order)
    (others : ∀ x, x ∉ order → e.sheet.UpToDate x) :
    (e.refreshAll order).sheet.outline = e.sheet.outline ∧
      (e.refreshAll order).sheet.Classified ∧ ∀ x, (e.refreshAll order).sheet.UpToDate x := by
  have hkeep : ∀ e' : Edit, e'.sheet.outline = e.sheet.outline →
      e'.sheet.Linked ∧ e'.sheet.Bound ∧ e'.sheet.referencesOf = e.sheet.referencesOf := by
    intro e' ho
    have hw := Sheet.wiring_eq_of_outline ho
    exact ⟨linked.of_wiring hw.symm, bound.of_outline ho.symm, Sheet.referencesOf_eq_of_wiring hw⟩
  have hfold := foldl_settles linked.acyclic_dependents refresh
    (fun e' => e'.sheet.outline = e.sheet.outline ∧ e'.sheet.Classified)
    (fun e' x => e'.sheet.UpToDate x) ?_ ?_ ?_ sorted closed ⟨rfl, classified⟩ others
  · exact ⟨hfold.1.1, hfold.1.2, hfold.2⟩
  · intro e' x hk
    exact ⟨(within_refresh e' x).outline.trans hk.1, refresh_classified hk.2⟩
  · intro e' x hk hgood
    obtain ⟨hl, hb, hr⟩ := hkeep e' hk.1
    apply refresh_upToDate hl hb hk.2
    intro r hm
    rw [hr, linked.inverse] at hm
    exact (hgood r hm).deep
  · intro e' x y hk hne hapart hgood
    obtain ⟨-, hb, hr⟩ := hkeep e' hk.1
    refine (within_refresh e' x).frame hgood hb hne ?_
    rw [Sheet.Refers, hr]
    exact fun ht => hapart (linked.transGen_dependents.mpr ht)

/-- Propagating from a cell brings the sheet up to date if only dependents of the cell are not. -/
theorem propagate_upToDate (linked : e.sheet.Linked) (bound : e.sheet.Bound)
    (classified : e.sheet.Classified)
    (others : ∀ x, ¬TransGen e.sheet.Refers x id → e.sheet.UpToDate x) :
    (e.propagate id).sheet.outline = e.sheet.outline ∧
      (e.propagate id).sheet.Classified ∧ ∀ x, (e.propagate id).sheet.UpToDate x := by
  apply refreshAll_upToDate linked bound classified (linked.below_sorted id)
  · intro x hx y hy
    exact linked.below_closed hx hy
  · intro x hx
    exact others x fun h => hx (linked.mem_below h)

end Edit

end LiveSheet
