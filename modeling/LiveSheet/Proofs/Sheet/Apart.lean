import LiveSheet.Proofs.Sheet.Stance

namespace LiveSheet

open Relation

/-- What lies in the rest of an order that is closed along its steps leads to no cell before it. -/
theorem mem_suffix_of_reaches {next : CellId → List CellId} {front rest : List CellId}
    (sorted : (front ++ rest).Pairwise fun a b => a ∉ next b)
    (closed : ∀ x ∈ front ++ rest, ∀ y ∈ next x, y ∈ front ++ rest) {x y : CellId}
    (hx : x ∈ rest) (hy : TransGen (Leads next) x y) : y ∈ rest := by
  have hstep : ∀ a ∈ rest, ∀ b ∈ next a, b ∈ rest := by
    intro a ha b hb
    rcases List.mem_append.mp (closed a (List.mem_append_right _ ha) b hb) with hm | hm
    · exact absurd hb ((List.pairwise_append.mp sorted).2.2 b hm a ha)
    · exact hm
  induction hy with
  | single h => exact hstep x hx _ h
  | tail _ h ih => exact hstep _ ih _ h

/-- What a cell has of its own: all but its back references. -/
def Cell.own (c : Cell) : Cell :=
  { c with referencedBy := ∅ }

/-- The cell with the transitive references and the back references of another one. -/
def Cell.linkedAs (c d : Cell) : Cell :=
  { c with deep := d.deep, referencedBy := d.referencedBy }

theorem Cell.eq_of_own {c d : Cell} (h : d.own = c.own) :
    d = { c with referencedBy := d.referencedBy } := by
  cases c
  cases d
  simp only [own, Cell.mk.injEq] at h ⊢
  simp [h]

theorem Cell.eq_linkedAs {c d : Cell} (h : d.own.shallow = c.own.shallow) : d = c.linkedAs d := by
  cases c
  cases d
  simp only [own, shallow, linkedAs, Cell.mk.injEq] at h ⊢
  simp [h]

theorem Cell.relink_own {id : CellId} (old references : IdSet) {c : Cell} (h : c.id ≠ id) :
    (relink id old references c).own = c.own := by
  simp only [relink, h, ↓reduceIte]
  split_ifs <;> rfl

namespace Sheet

variable {s t u : Sheet} {id x y : CellId} {b c d : Cell}

/-- Both sheets have the same cell under an identity, up to its back references. -/
def SameOwn (s t : Sheet) (x : CellId) : Prop :=
  (t.cell? x).map Cell.own = (s.cell? x).map Cell.own

namespace SameOwn

theorem of_cell?_eq (h : t.cell? x = s.cell? x) : s.SameOwn t x :=
  congrArg (Option.map Cell.own) h

theorem trans (h : s.SameOwn t x) (h' : t.SameOwn u x) : s.SameOwn u x :=
  Eq.trans h' h

theorem symm (h : s.SameOwn t x) : t.SameOwn s x :=
  Eq.symm h

theorem cell? (h : s.SameOwn t x) (hd : t.cell? x = some d) :
    ∃ c, s.cell? x = some c ∧ d.own = c.own := by
  unfold SameOwn at h
  rw [hd] at h
  obtain ⟨c, hc, he⟩ := Option.map_eq_some_iff.mp h.symm
  exact ⟨c, hc, he.symm⟩

theorem sameCore (h : s.SameOwn t x) : s.SameCore t x := by
  have hcore : ∀ u : Sheet, (u.cell? x).map Cell.core =
      ((u.cell? x).map Cell.own).map Cell.core := by
    intro u
    rw [Option.map_map]
    rfl
  rw [SameCore, hcore s, hcore t, h]

theorem referencesOf (h : s.SameOwn t x) : t.referencesOf x = s.referencesOf x :=
  h.sameCore.referencesOf

theorem hasError_eq (h : s.SameOwn t x) : t.hasError x = s.hasError x :=
  h.sameCore.sameFace.hasError_eq.symm

/-- Formulas find the same values and the same faults in such cells. -/
theorem agreeOn {ref : CellRef} (h : s.SameOwn t ref.id) :
    s.context.AgreeOn (· = ·) t.context ref := by
  cases hd : t.cell? ref.id with
  | none =>
    have hc : s.cell? ref.id = none := by
      rw [SameOwn, hd] at h
      exact Option.map_eq_none_iff.mp h.symm
    refine ⟨?_, fun row col => ?_⟩
    all_goals simp only [context, referenced, hc, hd]; exact .refl (fun _ => rfl) _
  | some d =>
    obtain ⟨c, hc, hown⟩ := h.cell? hd
    have hread : d.read = c.read := (congrArg Cell.read hown :)
    have hgrid : d.grid? = c.grid? := (congrArg Cell.grid? hown :)
    have hname : d.name = c.name := (congrArg Cell.name hown :)
    refine ⟨?_, fun row col => ?_⟩
    · simp only [context, referenced, hc, hd, hread, hname, bind, Except.bind]
      exact .refl (fun _ => rfl) _
    · simp only [context, referenced, hc, hd, hgrid, hname, bind, Except.bind]
      exact .refl (fun _ => rfl) _

end SameOwn

theorem eval_eq_of_own {tree : Expr} (h : ∀ y ∈ tree.cells, s.SameOwn t y) :
    tree.eval t.context = tree.eval s.context := by
  have hsame : SameUpTo (· = ·) (tree.eval s.context) (tree.eval t.context) :=
    tree.eval_sameUpTo (fun _ => rfl) fun ref hr =>
      (h ref.id (Expr.mem_cells_of_mem_refs hr)).agreeOn
  exact hsame.eq.symm

theorem BelowError.congr {d : Cell} (h : s.BelowError c) (deep : d.deep = c.deep)
    (same : ∀ y ∈ c.deep, t.hasError y = s.hasError y) : t.BelowError d := by
  obtain ⟨y, hy, he⟩ := h
  exact ⟨y, deep ▸ hy, (same y hy).trans he⟩

theorem Sound.linked_of_outline (h : t.Sound) (same : t.outline = s.outline) :
    s.Linked ∧ s.ids.Nodup := by
  have hwiring := wiring_eq_of_outline same
  exact ⟨h.linked.of_wiring hwiring, ids_eq_of_wiring hwiring ▸ h.indexed.nodup⟩

theorem below_nodup (distinct : s.ids.Nodup) (id : CellId) : (s.below id).Nodup :=
  (List.nodup_reverse.mpr (postOrder_nodup distinct)).sublist (List.drop_sublist _ _)

theorem not_mem_below_self (distinct : s.ids.Nodup) (id : CellId) : id ∉ s.below id := by
  by_cases hid : id ∈ s.ids
  · have horder : (s.affectedOrder [id]).Nodup := List.nodup_reverse.mpr (postOrder_nodup distinct)
    rw [affectedOrder_singleton hid] at horder
    exact (List.nodup_cons.mp horder).1
  · simp [below, affectedOrder, postOrder, hid]

theorem Linked.mem_below_iff (h : s.Linked) (distinct : s.ids.Nodup) :
    x ∈ s.below id ↔ TransGen s.Refers x id := by
  refine ⟨fun hx => ?_, h.mem_below⟩
  obtain ⟨r, hr, -, hp⟩ := h.mem_affectedOrder.mp (List.mem_of_mem_drop hx)
  obtain rfl : r = id := by simpa using hr
  rcases reflTransGen_iff_eq_or_transGen.mp hp with rfl | hp
  · exact absurd hx (not_mem_below_self distinct x)
  · exact h.transGen_dependents.mp hp

end Sheet

namespace Edit

open Sheet

variable {e e' : Edit} {id x y : CellId} {b c d : Cell} {order : List CellId}

namespace Recomputed

theorem deep_eq (h : e.Recomputed c d) : d.deep = c.deep := by
  cases h with
  | structural _ h => rw [h]
  | treeless _ h => rw [h]
  | below _ _ _ _ _ h => rw [h]
  | failed _ _ _ _ _ _ h => rw [h]
  | shown _ _ _ _ _ _ h => rw [h]

theorem referencedBy_eq (h : e.Recomputed c d) : d.referencedBy = c.referencedBy := by
  cases h with
  | structural _ h => rw [h]
  | treeless _ h => rw [h]
  | below _ _ _ _ _ h => rw [h]
  | failed _ _ _ _ _ _ h => rw [h]
  | shown _ _ _ _ _ _ h => rw [h]

/-- It does not matter what else there is in the sheet than what the cell depends on. -/
theorem congr (h : e.Recomputed c d) (deep : ∀ y ∈ c.deep, e'.sheet.hasError y = e.sheet.hasError y)
    (named : ∀ tree, c.tree? = some tree → ∀ y ∈ tree.cells, e.sheet.SameOwn e'.sheet y) :
    e'.Recomputed c d := by
  have hclear : ¬e.sheet.BelowError c → ¬e'.sheet.BelowError c :=
    mt fun hb => hb.congr rfl fun y hy => (deep y hy).symm
  cases h with
  | structural hs h => exact .structural hs h
  | treeless ht h => exact .treeless ht h
  | below hsane tree ht hb name h => exact .below hsane tree ht (hb.congr rfl deep) name h
  | failed hsane tree ht hc cause he h =>
    exact .failed hsane tree ht (hclear hc) cause ((eval_eq_of_own (named tree ht)).trans he) h
  | shown hsane tree ht hc v hv h =>
    exact .shown hsane tree ht (hclear hc) v ((eval_eq_of_own (named tree ht)).trans hv) h

/-- It shows a value of its tree unless there is an error in it. -/
theorem clear (h : e.Recomputed c d) (hd : d.error = none) (ht : d.tree? ≠ none) :
    ¬e.sheet.BelowError d := by
  cases h with
  | structural hs h => simp [← h, Cell.isStructural, hd] at hs
  | treeless hn h => exact absurd (h ▸ hn) ht
  | below _ _ _ _ _ h => simp [h] at hd
  | failed _ _ _ _ _ _ h => simp [h] at hd
  | shown _ _ _ hc _ _ h => exact fun hb => hc (hb.congr (by rw [h]) fun _ _ => rfl)

end Recomputed

theorem refreshAll_others (e : Edit) (hx : x ∉ order) :
    (e.refreshAll order).sheet.cell? x = e.sheet.cell? x := by
  induction order generalizing e with
  | nil => rfl
  | cons id rest ih =>
    obtain ⟨hne, hrest⟩ : x ≠ id ∧ x ∉ rest := by simpa using hx
    exact (ih (e.refresh id) hrest).trans ((within_refresh e id).others x hne)

theorem recollectAll_others (e : Edit) (hx : x ∉ order) :
    (order.foldl recollect e).sheet.cell? x = e.sheet.cell? x := by
  induction order generalizing e with
  | nil => rfl
  | cons id rest ih =>
    obtain ⟨hne, hrest⟩ : x ≠ id ∧ x ∉ rest := by simpa using hx
    exact (ih (e.recollect id) hrest).trans ((within_setDeep e id _).others x hne)

/-- Each cell of an order is recomputed once, when all that it depends on is as it will be. -/
theorem refreshAll_recomputed (sound : (e.refreshAll order).sheet.Sound) (distinct : order.Nodup)
    (sorted : order.Pairwise fun a b => a ∉ e.sheet.dependentsOf b)
    (closed : ∀ x ∈ order, ∀ y ∈ e.sheet.dependentsOf x, y ∈ order) (hx : x ∈ order)
    (hc : e.sheet.cell? x = some c) : ∃ d, (e.refreshAll order).sheet.cell? x = some d ∧
      (e.refreshAll order).Recomputed { c with deep := d.deep } d := by
  have hdependents := dependentsOf_eq_of_wiring (wiring_eq_of_outline (outline_refreshAll e order))
  obtain ⟨front, rest, rfl⟩ := List.append_of_mem hx
  have hsplit : e.refreshAll (front ++ x :: rest) =
      ((e.refreshAll front).refresh x).refreshAll rest :=
    List.foldl_append ..
  rw [hsplit] at sound hdependents ⊢
  obtain ⟨-, hlater, happart⟩ := List.nodup_append.mp distinct
  have hfront : x ∉ front := fun hm => happart x hm x (by simp) rfl
  have hrest : x ∉ rest := (List.nodup_cons.mp hlater).1
  let e₁ := e.refreshAll front
  have hc₁ : e₁.sheet.cell? x = some c := (refreshAll_others e hfront).trans hc
  let deep := e₁.sheet.collectDeep x
  obtain ⟨d, hd, hrecomputed⟩ := recompute_outcome (setDeep_cell? hc₁ deep)
  have hd' : ((e₁.refresh x).refreshAll rest).sheet.cell? x = some d :=
    (refreshAll_others _ hrest).trans hd
  have hdeep := hrecomputed.deep_eq
  refine ⟨d, hd', ?_⟩
  rw [hdeep]
  -- What the cell depends on comes before it in the order, or not at all.
  have hsame : ∀ y, TransGen ((e₁.refresh x).refreshAll rest).sheet.Refers x y →
      ((e₁.refresh x).refreshAll rest).sheet.cell? y = (e₁.setDeep x deep).sheet.cell? y := by
    intro y hy
    have hne : y ≠ x := fun he => sound.linked.acyclic x (he ▸ hy)
    have hmem : y ∉ rest := by
      intro hm
      have hreach := sound.linked.transGen_dependents.mpr hy
      rw [hdependents] at hreach
      rw [List.append_cons] at sorted closed
      exact hrest (mem_suffix_of_reaches sorted closed hm hreach)
    exact (refreshAll_others _ hmem).trans ((within_recompute _ x).others y hne)
  apply hrecomputed.congr
  · intro y hy
    unfold hasError
    rw [hsame y]
    apply ((sound.upToDate x).deep y).mp
    rw [deepOf_of_cell? hd', hdeep]
    exact hy
  · intro tree ht y hy
    apply SameOwn.of_cell?_eq
    have htree : d.tree? = some tree := by
      have ho := Sheet.cell?_outline (within_recompute (e₁.setDeep x deep) x).outline hd
      obtain ⟨c', hc', ho⟩ := ho
      obtain rfl := Option.some.inj ((setDeep_cell? hc₁ deep).symm.trans hc')
      exact (Cell.tree?_eq_of_outline ho).symm.trans ht
    by_cases hl : y ∈ ((e₁.refresh x).refreshAll rest).sheet.ids
    · exact hsame y (.single (sound.bound.refers hd' htree hy hl))
    · have hids := ids_eq_of_wiring (wiring_eq_of_outline
        ((outline_refreshAll (e₁.refresh x) rest).trans
          (within_recompute (e₁.setDeep x deep) x).outline))
      rw [not_mem_ids_iff.mp hl, not_mem_ids_iff.mp (hids ▸ hl)]

end Edit

end LiveSheet
