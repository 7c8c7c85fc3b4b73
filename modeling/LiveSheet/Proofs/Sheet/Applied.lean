import LiveSheet.Proofs.Sheet.Sparing

namespace LiveSheet

open Relation

namespace Edit

open Sheet

variable {e e' : Edit} {id x : CellId} {b c d : Cell} {tree : Expr}

theorem recollectAll_shallow (e : Edit) (order : List CellId) :
    (order.foldl recollect e).sheet.shallow = e.sheet.shallow := by
  induction order generalizing e with
  | nil => rfl
  | cons x rest ih => exact (ih (e.recollect x)).trans (setDeep_shallow e x _)

theorem propagate_outline (e : Edit) (id : CellId) :
    (e.propagate id).sheet.outline = e.sheet.outline :=
  outline_refreshAll e (e.sheet.below id)

theorem linked_of_propagate (sound : (e.propagate id).sheet.Sound) :
    e.sheet.Linked ∧ e.sheet.ids.Nodup :=
  sound.linked_of_outline (propagate_outline e id)

theorem propagate_self (sound : (e.propagate id).sheet.Sound) :
    (e.propagate id).sheet.cell? id = e.sheet.cell? id :=
  refreshAll_others e (not_mem_below_self (linked_of_propagate sound).2 id)

section Propagation

variable (same : ∀ x, x ≠ id → e.sheet.SameOwn e'.sheet x)
include same

theorem reaches_iff_of_same (hx : x ≠ id) :
    TransGen e'.sheet.Refers x id ↔ TransGen e.sheet.Refers x id := by
  refine transGen_target_iff (fun y hy z => ?_) hx
  change z ∈ _ ↔ z ∈ _
  rw [(same y hy).referencesOf]

theorem mem_below_iff_of_same (linked : e'.sheet.Linked ∧ e'.sheet.ids.Nodup) (hx : x ≠ id) :
    x ∈ e'.sheet.below id ↔ TransGen e.sheet.Refers x id := by
  rw [linked.1.mem_below_iff linked.2, reaches_iff_of_same same hx]

variable (sound : (e'.propagate id).sheet.Sound)
include sound

/-- Cells that do not depend on a cell are left alone when what does is recomputed. -/
theorem propagate_spares (hx : x ≠ id) (apart : ¬TransGen e.sheet.Refers x id) :
    e'.Spares (e'.propagate id) x :=
  spares_refreshAll e' (mt (mem_below_iff_of_same same (linked_of_propagate sound) hx).mp apart)

theorem propagate_below (hx : x ≠ id) (hreach : TransGen e.sheet.Refers x id)
    (hb : e.sheet.cell? x = some b) : ∃ d, (e'.propagate id).sheet.cell? x = some d ∧
      (e'.propagate id).Recomputed (b.linkedAs d) d := by
  have hlinked := linked_of_propagate sound
  obtain ⟨b', hb', hown⟩ := (same x hx).symm.cell? hb
  obtain ⟨d, hd, hrecomputed⟩ := refreshAll_recomputed sound (below_nodup hlinked.2 id)
    (hlinked.1.below_sorted id) (fun _ hy _ hz => hlinked.1.below_closed hy hz)
    ((mem_below_iff_of_same same hlinked hx).mpr hreach) hb'
  have hback := hrecomputed.referencedBy_eq
  refine ⟨d, hd, ?_⟩
  have hlinkedAs : b.linkedAs d = { b' with deep := d.deep } := by
    rw [Cell.linkedAs, Cell.eq_of_own hown, hback]
  rw [hlinkedAs]
  exact hrecomputed

end Propagation

/-- How settling a cell `c` on its formula leaves the sheet: the formula fails, or it closes a
cycle, or the cell has the tree of its formula. What depends on the cell is recomputed, unless the
cell closes a cycle. -/
inductive Applied (e : Edit) (id : CellId) (c : Cell) (e' : Edit) : Prop
  | failed (cause : FormulaError) (h : compile e.sheet.resolver c.formula = .error cause)
    (here : e'.sheet.cell? id = some { c with
      content := .formula none, unresolved := cause.missing, error := some (.definition cause) })
    (below : ∀ x b, TransGen e.sheet.Refers x id → e.sheet.cell? x = some b →
      ∃ d, e'.sheet.cell? x = some d ∧ e'.Recomputed (b.linkedAs d) d)
  | circular (tree : Expr) (h : compile e.sheet.resolver c.formula = .ok tree)
    (closes : ∃ r ∈ tree.cells, ReflTransGen e.sheet.Refers r id) (d : Cell) (name : String)
    (here : e'.sheet.cell? id = some d) (eq : d = { c.linkedAs d with
      content := .formula none, unresolved := [], references := ∅, error := some (.circular name) })
    (below : ∀ x b, TransGen e.sheet.Refers x id → e.sheet.cell? x = some b →
      ∃ d, e'.sheet.cell? x = some d ∧ d = b.linkedAs d)
  | built (tree : Expr) (h : compile e.sheet.resolver c.formula = .ok tree) (d : Cell)
    (error : Option CellError) (sane : error.any CellError.isStructural = false)
    (here : e'.sheet.cell? id = some d) (recomputed : e'.Recomputed { c.linkedAs d with
      content := .formula (some tree), unresolved := [], references := tree.references,
      error := error } d)
    (below : ∀ x b, TransGen e.sheet.Refers x id → e.sheet.cell? x = some b →
      ∃ d, e'.sheet.cell? x = some d ∧ e'.Recomputed (b.linkedAs d) d)

theorem failDefinition_applied (sound : e.sheet.SoundBut id) (hc : e.sheet.cell? id = some c)
    {cause : FormulaError} (h : compile e.sheet.resolver c.formula = .error cause) :
    e.Applied id c (e.failDefinition id cause) := by
  have hsame : ∀ x, x ≠ id → e.sheet.SameOwn (e.faulted id cause).sheet x :=
    fun x hx => (spares_faulted e hx cause).own
  have hsound := failDefinition_sound sound hc cause
  rw [failDefinition_eq] at hsound ⊢
  refine .failed cause h ?_ fun x b hx hb => ?_
  · rw [propagate_self hsound]
    exact faulted_cell? hc cause
  · exact propagate_below hsame hsound (fun he => sound.linked.acyclic id (he ▸ hx)) hx hb

/-- A cell whose formula is planted collects itself exactly if that closes a cycle of the references
there were. -/
theorem mem_collectDeep_planted (sound : e.sheet.SoundBut id) (hc : e.sheet.cell? id = some c) :
    id ∈ (e.planted id tree).sheet.collectDeep id ↔
      ∃ r ∈ tree.cells, ReflTransGen e.sheet.Refers r id := by
  obtain ⟨back, hplanted⟩ := planted_cell? hc tree
  have hdeep : ∀ r, r ≠ id → (id ∈ (e.planted id tree).sheet.deepOf r ↔
      TransGen e.sheet.Refers r id) := by
    intro r hne
    rw [((planted_alters e id tree).others r hne).deepOf]
    exact (sound.upToDate r hne).deep id
  rw [mem_collectDeep, referencesOf_of_cell? hplanted]
  simp only [← IdSet.mem_iff, Expr.mem_references]
  constructor
  · rintro ⟨r, hr, hback⟩
    refine ⟨r, hr, ?_⟩
    by_cases hne : r = id
    · exact hne ▸ .refl
    · exact ((hdeep r hne).mp (hback.resolve_left (Ne.symm hne))).to_reflTransGen
  · rintro ⟨r, hr, hback⟩
    refine ⟨r, hr, ?_⟩
    by_cases hne : r = id
    · exact .inl hne.symm
    · exact .inr ((hdeep r hne).mpr
        ((reflTransGen_iff_eq_or_transGen.mp hback).resolve_left (Ne.symm hne)))

theorem breakCycle_cell? (distinct : e.sheet.ids.Nodup) (hc : e.sheet.cell? id = some c) :
    ∃ referencedBy, (e.breakCycle id).sheet.cell? id = some { c with
      content := .formula none, references := ∅, deep := ∅, referencedBy := referencedBy,
      error := some (.circular c.name) } := by
  obtain ⟨referencedBy, hself⟩ := setReferences_cell?_self hc ∅
  have hunlinked := modify_cell? (f := Cell.blank) (fun _ => rfl) hself
  change (e.unlink id).sheet.cell? id = _ at hunlinked
  have hname : (e.unlink id).sheet.displayName id = c.name := by
    simp only [displayName, hunlinked]
    rfl
  have hcut : (e.cutOff id).sheet.cell? id = _ := setError_cell? hunlinked _
  rw [hname] at hcut
  have hids : (e.cutOff id).sheet.ids.Nodup := (cutOff_alters e id).ids_eq ▸ distinct
  refine ⟨referencedBy, ?_⟩
  rw [breakCycle_eq, recollectAll_others _ (not_mem_below_self hids id)]
  exact hcut

/-- Other cells than the one that closes a cycle are the same but for their links. -/
theorem breakCycle_linkedAs (hx : x ≠ id) (hb : e.sheet.cell? x = some b) :
    ∃ d, (e.breakCycle id).sheet.cell? x = some d ∧ d = b.linkedAs d := by
  obtain ⟨b', hb', hown⟩ := (spares_cutOff e hx).own.symm.cell? hb
  obtain ⟨d, hd, hshallow⟩ :=
    cell?_shallow (recollectAll_shallow (e.cutOff id) ((e.cutOff id).sheet.below id)).symm hb'
  have hbare : d.own.shallow = b.own.shallow :=
    (congrArg Cell.own hshallow).trans (congrArg Cell.shallow hown).symm
  exact ⟨d, hd, Cell.eq_linkedAs hbare⟩

theorem planted_breakCycle_linkedAs (tree : Expr) (hx : x ≠ id) (hb : e.sheet.cell? x = some b) :
    ∃ d, ((e.planted id tree).breakCycle id).sheet.cell? x = some d ∧ d = b.linkedAs d := by
  obtain ⟨b', hb', hown⟩ := (spares_planted e hx tree).own.symm.cell? hb
  obtain ⟨d, hd, hlinked⟩ := breakCycle_linkedAs hx hb'
  refine ⟨d, hd, ?_⟩
  rw [hlinked, Cell.eq_of_own hown.symm]
  rfl

theorem breakCycle_applied (sound : e.sheet.SoundBut id) (hc : e.sheet.cell? id = some c)
    (h : compile e.sheet.resolver c.formula = .ok tree)
    (hmem : id ∈ (e.planted id tree).sheet.collectDeep id) :
    e.Applied id c ((e.planted id tree).breakCycle id) := by
  obtain ⟨back, hplanted⟩ := planted_cell? hc tree
  have hids : (e.planted id tree).sheet.ids.Nodup :=
    (planted_alters e id tree).ids_eq ▸ sound.indexed.nodup
  obtain ⟨referencedBy, hhere⟩ := breakCycle_cell? hids hplanted
  refine .circular tree h ((mem_collectDeep_planted sound hc).mp hmem) _ c.name hhere rfl
    fun x b hx hb => ?_
  exact planted_breakCycle_linkedAs tree (fun he => sound.linked.acyclic id (he ▸ hx)) hb

theorem built_applied (sound : e.sheet.SoundBut id) (hc : e.sheet.cell? id = some c)
    (h : compile e.sheet.resolver c.formula = .ok tree)
    (apart : id ∉ (e.planted id tree).sheet.collectDeep id)
    (hsound : (((e.planted id tree).refreshed id).propagate id).sheet.Sound) :
    e.Applied id c (((e.planted id tree).refreshed id).propagate id) := by
  have hsame : ∀ x, x ≠ id → e.sheet.SameOwn ((e.planted id tree).refreshed id).sheet x :=
    fun x hx => ((spares_planted e hx tree).trans (spares_refreshed _ hx)).own
  obtain ⟨back, hplanted⟩ := planted_cell? hc tree
  generalize e.planted id tree = e₁ at hsame apart hplanted hsound ⊢
  obtain ⟨error, hcell, hsane⟩ :=
    clearStructural_cell? (setDeep_cell? hplanted (e₁.sheet.collectDeep id))
  obtain ⟨d, hd, hrecomputed⟩ := recompute_outcome hcell
  have hdeep : d.deep = e₁.sheet.collectDeep id := hrecomputed.deep_eq
  have hback : d.referencedBy = back := hrecomputed.referencedBy_eq
  have hhere : ((e₁.refreshed id).propagate id).sheet.cell? id = some d :=
    (propagate_self hsound).trans hd
  -- What the cell depends on is not recomputed, as it does not depend on the cell.
  have hstay : ∀ y ∈ e₁.sheet.collectDeep id,
      ((e₁.refreshed id).propagate id).sheet.cell? y =
        ((e₁.setDeep id (e₁.sheet.collectDeep id)).clearStructural id).sheet.cell? y := by
    intro y hy
    have hne : y ≠ id := fun he => apart (he ▸ hy)
    have hforth : TransGen ((e₁.refreshed id).propagate id).sheet.Refers id y := by
      apply ((hsound.upToDate id).deep y).mp
      rw [deepOf_of_cell? hhere, hdeep]
      exact hy
    have hlinked := linked_of_propagate hsound
    have hmem : y ∉ (e₁.refreshed id).sheet.below id := by
      intro hm
      rw [Refers, referencesOf_eq_of_wiring
        (wiring_eq_of_outline (propagate_outline (e₁.refreshed id) id))] at hforth
      exact hlinked.1.acyclic id (hforth.trans ((hlinked.1.mem_below_iff hlinked.2).mp hm))
    exact (refreshAll_others _ hmem).trans ((within_recompute _ id).others y hne)
  refine .built tree h d error hsane hhere ?_ fun x b hx hb => ?_
  · simp only [Cell.linkedAs, hdeep, hback]
    apply hrecomputed.congr
    · intro y hy
      rw [hasError, hstay y hy, hasError]
    · intro tree' ht y hy
      obtain rfl : tree = tree' := Option.some.inj ht
      apply SameOwn.of_cell?_eq (hstay y _)
      refine mem_collectDeep.mpr ⟨y, ?_, .inl rfl⟩
      rw [referencesOf_of_cell? hplanted]
      exact Expr.mem_references.mpr hy
  · exact propagate_below hsame hsound (fun he => sound.linked.acyclic id (he ▸ hx)) hx hb

/-- Settling a cell on its formula ends in one of three ways. -/
theorem applyFormula_applied (sound : e.sheet.SoundBut id) (hc : e.sheet.cell? id = some c)
    (formula : c.isTable = false) : e.Applied id c (e.applyFormula id) := by
  have hsound := applyFormula_sound sound hc formula
  simp only [applyFormula, hc, formula, Bool.false_eq_true, ↓reduceIte] at hsound ⊢
  cases hcompile : compile e.sheet.resolver c.formula with
  | error cause => exact failDefinition_applied sound hc hcompile
  | ok tree =>
    rw [hcompile] at hsound
    simp only [settle_eq] at hsound ⊢
    split at hsound
    next hmem =>
      rw [if_pos hmem]
      exact breakCycle_applied sound hc hcompile hmem
    next hmem =>
      rw [if_neg hmem]
      exact built_applied sound hc hcompile hmem hsound

/-- Settling a cell leaves the cells alone that do not depend on it. -/
theorem applyFormula_spares (sound : e.sheet.SoundBut id) (hx : x ≠ id)
    (apart : ¬TransGen e.sheet.Refers x id) : e.Spares (e.applyFormula id) x := by
  rcases applyFormula_cases e id with ⟨c, hc, formula⟩ | ⟨hstay, -⟩
  · have hsound := applyFormula_sound sound hc formula
    simp only [applyFormula, hc, formula, Bool.false_eq_true, ↓reduceIte] at hsound ⊢
    cases hcompile : compile e.sheet.resolver c.formula with
    | error cause =>
      rw [hcompile] at hsound
      have hspares : ∀ y, y ≠ id → e.Spares (e.faulted id cause) y :=
        fun y hy => spares_faulted e hy cause
      exact (hspares x hx).trans (propagate_spares (fun y hy => (hspares y hy).own) hsound hx apart)
    | ok tree =>
      rw [hcompile] at hsound
      simp only [settle_eq] at hsound ⊢
      split at hsound
      next hmem =>
        rw [if_pos hmem]
        have hspares : ∀ y, y ≠ id → e.Spares ((e.planted id tree).cutOff id) y :=
          fun y hy => (spares_planted e hy tree).trans (spares_cutOff _ hy)
        rw [breakCycle_eq] at hsound ⊢
        have hlinked := hsound.linked_of_outline (outline_recollectAll _ _)
        exact (hspares x hx).trans (spares_recollectAll _ (mt (mem_below_iff_of_same
          (fun y hy => (hspares y hy).own) hlinked hx).mp apart))
      next hmem =>
        rw [if_neg hmem]
        have hspares : ∀ y, y ≠ id → e.Spares ((e.planted id tree).refreshed id) y :=
          fun y hy => (spares_planted e hy tree).trans (spares_refreshed _ hy)
        exact (hspares x hx).trans
          (propagate_spares (fun y hy => (hspares y hy).own) hsound hx apart)
  · rw [hstay]
    exact .refl e x

theorem applyFormula_apart (sound : e.sheet.SoundBut id) (hx : x ≠ id)
    (apart : ¬TransGen e.sheet.Refers x id) : e.sheet.SameOwn (e.applyFormula id).sheet x :=
  (applyFormula_spares sound hx apart).own

end Edit

end LiveSheet
