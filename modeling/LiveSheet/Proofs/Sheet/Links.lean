import LiveSheet.Proofs.Walk
import LiveSheet.Proofs.Sheet.Lookup

namespace LiveSheet

open Relation

namespace Sheet

/-- The formula of one cell names the other. -/
def Refers (s : Sheet) : CellId → CellId → Prop :=
  Leads s.referencesOf

/-- References and back references agree. -/
def Mutual (s : Sheet) : Prop :=
  ∀ a b, b ∈ s.referencesOf a ↔ a ∈ s.dependentsOf b

/-- References and back references agree, and no cell depends on itself. -/
structure Linked (s : Sheet) : Prop where
  inverse : s.Mutual
  acyclic : Acyclic s.referencesOf

theorem referencesOf_of_cell? {s : Sheet} {id : CellId} {c : Cell} (h : s.cell? id = some c) :
    s.referencesOf id = c.references.ids := by
  simp [referencesOf, h]

theorem dependentsOf_of_cell? {s : Sheet} {id : CellId} {c : Cell} (h : s.cell? id = some c) :
    s.dependentsOf id = c.referencedBy.ids := by
  simp [dependentsOf, h]

theorem mem_ids_of_mem_referencesOf {s : Sheet} {a b : CellId} (h : b ∈ s.referencesOf a) :
    a ∈ s.ids := by
  cases hc : s.cell? a with
  | none => simp [referencesOf, hc] at h
  | some c => exact mem_ids_iff.mpr ⟨c, hc⟩

theorem mem_ids_of_mem_dependentsOf {s : Sheet} {a b : CellId} (h : a ∈ s.dependentsOf b) :
    b ∈ s.ids := by
  cases hc : s.cell? b with
  | none => simp [dependentsOf, hc] at h
  | some c => exact mem_ids_iff.mpr ⟨c, hc⟩

theorem Mutual.of_wiring {s t : Sheet} (hs : s.Mutual) (h : s.wiring = t.wiring) :
    t.Mutual := by
  unfold Mutual
  rw [← referencesOf_eq_of_wiring h, ← dependentsOf_eq_of_wiring h]
  exact hs

theorem Linked.of_wiring {s t : Sheet} (hs : s.Linked) (h : s.wiring = t.wiring) : t.Linked := by
  refine ⟨hs.inverse.of_wiring h, ?_⟩
  rw [← referencesOf_eq_of_wiring h]
  exact hs.acyclic

theorem mem_references_iff {s : Sheet} {x y : CellId} {c : Cell} (hc : s.cell? x = some c) :
    y ∈ c.references ↔ s.Refers x y := by
  rw [IdSet.mem_iff, ← referencesOf_of_cell? hc]
  rfl

/-- The back references of a cell are the cells whose formulas name it. -/
theorem Mutual.mem_referencedBy {s : Sheet} (h : s.Mutual) {x y : CellId} {c : Cell}
    (hc : s.cell? x = some c) : y ∈ c.referencedBy ↔ s.Refers y x := by
  rw [IdSet.mem_iff, ← dependentsOf_of_cell? hc]
  exact (h y x).symm

/-- A cell without references depends on nothing. -/
theorem not_reaches_of_references {s : Sheet} {x y : CellId} {c : Cell} (hc : s.cell? x = some c)
    (leaf : c.references.ids = []) : ¬TransGen s.Refers x y := by
  intro h
  obtain ⟨z, hz, -⟩ := TransGen.head'_iff.mp h
  change z ∈ s.referencesOf x at hz
  rw [referencesOf_of_cell? hc, leaf] at hz
  cases hz

theorem Linked.mem_ids {s : Sheet} (h : s.Linked) {a b : CellId} (hr : s.Refers a b) :
    b ∈ s.ids :=
  mem_ids_of_mem_dependentsOf ((h.inverse a b).mp hr)

theorem Linked.mem_ids_of_transGen {s : Sheet} (h : s.Linked) {a b : CellId}
    (hr : TransGen s.Refers a b) : b ∈ s.ids := by
  cases hr with
  | single hr => exact h.mem_ids hr
  | tail _ hr => exact h.mem_ids hr

/-- The dependents of a cell are found by following back references. -/
theorem Linked.transGen_dependents {s : Sheet} (h : s.Linked) {a b : CellId} :
    TransGen (Leads s.dependentsOf) a b ↔ TransGen s.Refers b a := by
  have hswap : Leads s.dependentsOf = Function.swap s.Refers := by
    funext x y
    exact propext (h.inverse y x).symm
  rw [hswap, transGen_swap]

theorem Linked.acyclic_dependents {s : Sheet} (h : s.Linked) : Acyclic s.dependentsOf :=
  fun x hx => h.acyclic x (h.transGen_dependents.mp hx)

theorem Linked.mem_affectedOrder {s : Sheet} (h : s.Linked) {roots : List CellId}
    {x : CellId} : x ∈ s.affectedOrder roots ↔
      ∃ r ∈ roots, r ∈ s.ids ∧ ReflTransGen (Leads s.dependentsOf) r x := by
  rw [affectedOrder, List.mem_reverse]
  apply mem_postOrder_iff
  intro a _ b hb
  exact mem_ids_of_mem_referencesOf ((h.inverse b a).mpr hb)

theorem Linked.affectedOrder_sorted {s : Sheet} (h : s.Linked) (roots : List CellId) :
    (s.affectedOrder roots).Pairwise fun a b => a ∉ s.dependentsOf b :=
  List.pairwise_reverse.mpr (postOrder_pairwise h.acyclic_dependents)

theorem Linked.affectedOrder_closed {s : Sheet} (h : s.Linked) {roots : List CellId}
    {x y : CellId} (hx : x ∈ s.affectedOrder roots) (hy : y ∈ s.dependentsOf x) :
    y ∈ s.affectedOrder roots := by
  obtain ⟨r, hr, hl, hp⟩ := h.mem_affectedOrder.mp hx
  exact h.mem_affectedOrder.mpr ⟨r, hr, hl, hp.tail hy⟩

/-- The cells that depend on a cell, in the order in which they are settled. -/
def below (s : Sheet) (id : CellId) : List CellId :=
  (s.affectedOrder [id]).drop 1

theorem affectedOrder_singleton {s : Sheet} {id : CellId} (h : id ∈ s.ids) :
    s.affectedOrder [id] = id :: s.below id := by
  have hp : ∃ xs, postOrder s.dependentsOf s.ids [id] = xs ++ [id] := by
    rw [postOrder]
    simp [h, postOrder]
  obtain ⟨xs, hxs⟩ := hp
  simp [below, affectedOrder, hxs]

theorem Linked.below_sorted {s : Sheet} (h : s.Linked) (id : CellId) :
    (s.below id).Pairwise fun a b => a ∉ s.dependentsOf b :=
  (h.affectedOrder_sorted [id]).sublist (List.drop_sublist _ _)

theorem Linked.mem_below {s : Sheet} (h : s.Linked) {id x : CellId} (hx : TransGen s.Refers x id) :
    x ∈ s.below id := by
  have hid : id ∈ s.ids := h.mem_ids_of_transGen hx
  have hr := h.transGen_dependents.mpr hx
  have hm : x ∈ s.affectedOrder [id] :=
    h.mem_affectedOrder.mpr ⟨id, by simp, hid, hr.to_reflTransGen⟩
  rw [affectedOrder_singleton hid] at hm
  rcases List.mem_cons.mp hm with rfl | hm
  · exact absurd hx (h.acyclic x)
  · exact hm

theorem Linked.below_closed {s : Sheet} (h : s.Linked) {id x y : CellId} (hx : x ∈ s.below id)
    (hy : y ∈ s.dependentsOf x) : y ∈ s.below id := by
  have hm := List.mem_of_mem_drop hx
  obtain ⟨r, hr, hid, hp⟩ := h.mem_affectedOrder.mp hm
  obtain rfl : r = id := by simpa using hr
  exact h.mem_below (h.transGen_dependents.mp (.tail' hp hy))

/-- The transitive references that a cell has on record. -/
def deepOf (s : Sheet) (id : CellId) : IdSet :=
  (s.cell? id).elim ∅ Cell.deep

theorem deepOf_of_cell? {s : Sheet} {id : CellId} {c : Cell} (h : s.cell? id = some c) :
    s.deepOf id = c.deep := by
  simp [deepOf, h]

theorem SameCore.deepOf {s t : Sheet} {id : CellId} (h : s.SameCore t id) :
    t.deepOf id = s.deepOf id := by
  have hd : ∀ u : Sheet, u.deepOf id = ((u.cell? id).map Cell.core).elim ∅ Cell.deep := by
    intro u
    unfold Sheet.deepOf
    cases u.cell? id <;> rfl
  rw [hd s, hd t, h]

/-- A cell has on record exactly the cells that it depends on. -/
def DeepAt (s : Sheet) (id : CellId) : Prop :=
  ∀ x, x ∈ s.deepOf id ↔ TransGen s.Refers id x

theorem DeepAt.mem_deep {s : Sheet} {x y : CellId} {c : Cell} (h : s.DeepAt x)
    (hc : s.cell? x = some c) : y ∈ c.deep ↔ TransGen s.Refers x y := by
  rw [← deepOf_of_cell? hc]
  exact h y

theorem mem_collectDeep {s : Sheet} {id x : CellId} :
    x ∈ s.collectDeep id ↔ ∃ r ∈ s.referencesOf id, x = r ∨ x ∈ s.deepOf r := by
  have hfold : ∀ (rs : List CellId) (deep : IdSet),
      x ∈ rs.foldl (fun deep r => (deep.insert r).union (s.deepOf r)) deep ↔
        x ∈ deep ∨ ∃ r ∈ rs, x = r ∨ x ∈ s.deepOf r := by
    intro rs
    induction rs with
    | nil => simp
    | cons r rs ih =>
      intro deep
      rw [List.foldl_cons, ih, IdSet.mem_union, IdSet.mem_insert]
      simp only [List.mem_cons, exists_eq_or_imp]
      rw [or_comm (a := x = r)]
      simp only [or_assoc]
  exact (hfold (s.referencesOf id) ∅).trans (by simp)

/-- What a cell collects from its references is right if they have theirs right. -/
theorem mem_collectDeep_iff {s : Sheet} {id x : CellId}
    (h : ∀ r ∈ s.referencesOf id, s.DeepAt r) :
    x ∈ s.collectDeep id ↔ TransGen s.Refers id x := by
  rw [mem_collectDeep, TransGen.head'_iff]
  constructor
  · rintro ⟨r, hr, rfl | hx⟩
    · exact ⟨x, hr, .refl⟩
    · exact ⟨r, hr, ((h r hr x).mp hx).to_reflTransGen⟩
  · rintro ⟨r, hr, hx⟩
    rcases reflTransGen_iff_eq_or_transGen.mp hx with rfl | hx
    · exact ⟨x, hr, .inl rfl⟩
    · exact ⟨r, hr, .inr ((h r hr x).mpr hx)⟩

end Sheet

end LiveSheet
