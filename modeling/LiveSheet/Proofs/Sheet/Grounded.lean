import LiveSheet.Proofs.Formula.Strictness
import LiveSheet.Proofs.Sheet.Stance

namespace LiveSheet

namespace Sheet

variable {s t : Sheet} {id x : CellId} {c : Cell}

theorem mem_ids_of_defined {ref : CellRef} (h : s.context.Defined ref) : ref.id ∈ s.ids := by
  rw [mem_ids_iff]
  cases hc : s.cell? ref.id with
  | some c => exact ⟨c, rfl⟩
  | none =>
    rcases h with ⟨v, h⟩ | ⟨row, col, v, h⟩ <;>
      simp [context, referenced, hc, bind, Except.bind] at h

/-- A cell without error has no tree that names a cell that is gone. -/
def GroundedAt (s : Sheet) (x : CellId) : Prop :=
  ∀ c tree, s.cell? x = some c → c.error = none → c.tree? = some tree → ∀ y ∈ tree.cells, y ∈ s.ids

def Grounded (s : Sheet) : Prop :=
  ∀ x, s.GroundedAt x

theorem GroundedAt.congr (h : s.GroundedAt x) (ids : t.ids = s.ids)
    (same : ∀ d, t.cell? x = some d → ∃ c, s.cell? x = some c ∧ d.error = c.error ∧
      d.tree? = c.tree?) : t.GroundedAt x := by
  intro d tree hd he ht
  obtain ⟨c, hc, herror, htree⟩ := same d hd
  rw [ids]
  exact h c tree hc (herror.symm.trans he) (htree.symm.trans ht)

theorem GroundedAt.of_sameCore (h : s.GroundedAt x) (ids : t.ids = s.ids)
    (same : s.SameCore t x) : t.GroundedAt x := by
  apply h.congr ids
  intro d hd
  obtain ⟨c, hc, hcore⟩ := same.cell? hd
  have hstate := Cell.sameState_of_core hcore
  exact ⟨c, hc, hstate.error.symm, hstate.tree.symm⟩

theorem groundedAt_of_error (hc : s.cell? x = some c) (he : c.error ≠ none) : s.GroundedAt x := by
  intro d tree hd hn
  obtain rfl := Option.some.inj (hc.symm.trans hd)
  exact absurd hn he

theorem groundedAt_of_treeless (hc : s.cell? x = some c) (ht : c.tree? = none) :
    s.GroundedAt x := by
  intro d tree hd _ htree
  obtain rfl := Option.some.inj (hc.symm.trans hd)
  rw [ht] at htree
  cases htree

end Sheet

namespace Edit

open Sheet

variable {e e' : Edit} {id x : CellId} {c : Cell}

theorem Within.groundedAt (hw : Within id e e') (hx : x ≠ id) (h : e.sheet.GroundedAt x) :
    e'.sheet.GroundedAt x :=
  h.of_sameCore (ids_eq_of_wiring (wiring_eq_of_outline hw.outline))
    (.of_cell?_eq (hw.others x hx))

/-- A cell that has just been recomputed is grounded, as its tree is evaluated in all its parts. -/
theorem recompute_groundedAt (e : Edit) (id : CellId) :
    (e.recompute id).sheet.GroundedAt id := by
  have hids := ids_eq_of_wiring (wiring_eq_of_outline (within_recompute e id).outline)
  cases hc : e.sheet.cell? id with
  | none =>
    intro c tree h
    have hl := mem_ids_iff.mpr ⟨c, h⟩
    rw [hids] at hl
    exact absurd hl (not_mem_ids_iff.mpr hc)
  | some c =>
    obtain ⟨d, hd, houtcome⟩ := recompute_outcome hc
    cases houtcome with
    | structural hs h =>
      subst h
      apply groundedAt_of_error hd
      intro he
      simp [Cell.isStructural, he] at hs
    | treeless ht h => exact groundedAt_of_treeless hd (h ▸ ht)
    | below _ _ _ _ _ h => exact groundedAt_of_error hd (by simp [h])
    | failed _ _ _ _ _ _ h => exact groundedAt_of_error hd (by simp [h])
    | shown _ tree ht _ v hv h =>
      subst h
      intro d' tree' hd' _ ht' y hy
      obtain rfl := Option.some.inj (hd.symm.trans hd')
      obtain rfl : tree = tree' := Option.some.inj (ht.symm.trans ht')
      rw [Expr.cells_eq] at hy
      obtain ⟨ref, hr, rfl⟩ := List.mem_map.mp hy
      rw [hids]
      exact mem_ids_of_defined (tree.eval_defined hv hr)

theorem refreshAll_grounded {order : List CellId}
    (others : ∀ x, x ∉ order → e.sheet.GroundedAt x) : (e.refreshAll order).sheet.Grounded := by
  induction order generalizing e with
  | nil => exact fun x => others x (by simp)
  | cons id rest ih =>
    apply ih (e := e.refresh id)
    intro x hx
    by_cases he : x = id
    · subst x
      exact recompute_groundedAt _ id
    · exact (within_refresh e id).groundedAt he (others x (by simp [he, hx]))

theorem recollectAll_groundedAt (order : List CellId) (h : e.sheet.GroundedAt x) :
    (order.foldl recollect e).sheet.GroundedAt x := by
  induction order generalizing e with
  | nil => exact h
  | cons id rest ih =>
    apply ih
    have hshallow := setDeep_shallow e id (e.sheet.collectDeep id)
    apply h.congr
      (ids_eq_of_wiring (wiring_eq_of_outline (outline_eq_of_shallow hshallow)))
    intro d hd
    obtain ⟨c, hc, hs⟩ := cell?_shallow hshallow hd
    exact ⟨c, hc, (congrArg Cell.error hs.symm :), (congrArg Cell.tree? hs.symm :)⟩

theorem propagate_grounded (h : e.sheet.Grounded) : (e.propagate id).sheet.Grounded :=
  refreshAll_grounded fun x _ => h x

/-- A cell that is settled is grounded, and the others stay so. -/
theorem applyFormula_grounded (hc : e.sheet.cell? id = some c) (formula : c.isTable = false)
    (others : ∀ x, x ≠ id → e.sheet.GroundedAt x) : (e.applyFormula id).sheet.Grounded := by
  have halters : ∀ {t : Sheet}, e.sheet.Alters t id → t.GroundedAt id → t.Grounded := by
    intro t ha here x
    by_cases hx : x = id
    · exact hx ▸ here
    · exact (others x hx).of_sameCore ha.ids_eq (ha.others x hx)
  simp only [applyFormula, hc, formula, Bool.false_eq_true, ↓reduceIte]
  split
  next tree _ =>
    have hplanted := planted_alters e id tree
    obtain ⟨referencedBy, hcell⟩ := planted_cell? hc tree
    rw [settle_eq]
    split
    next =>
      obtain ⟨d, hd, htree, -⟩ := cutOff_cell? hcell
      rw [breakCycle_eq]
      exact fun x => recollectAll_groundedAt _
        (halters (hplanted.trans (cutOff_alters _ id)) (groundedAt_of_treeless hd htree) x)
    next =>
      apply propagate_grounded
      exact halters (hplanted.trans (.of_within (within_refreshed _ id)))
        (recompute_groundedAt _ id)
  next cause _ =>
    rw [failDefinition_eq]
    apply propagate_grounded
    exact halters (faulted_alters e id cause) (groundedAt_of_treeless (faulted_cell? hc cause) rfl)

theorem rebind_grounded (h : e.sheet.Grounded) (name : String) :
    (e.rebind name).sheet.Grounded := by
  refine rebind_invariant Grounded (fun e id h => ?_) h name
  rcases applyFormula_cases e id with ⟨c, hc, ht⟩ | ⟨hstay, -⟩
  · exact applyFormula_grounded hc ht fun x _ => h x
  · rwa [hstay]

end Edit

end LiveSheet
