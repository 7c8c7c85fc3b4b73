import LiveSheet.Proofs.Sheet.Agreement

namespace LiveSheet

/-- The cell without what recomputing it and settling other cells may change: what is left of its
error is whether its formula or a cycle is at fault. -/
def Cell.stance (c : Cell) : Cell :=
  { c with value := default, error := c.error.filter CellError.isStructural, deep := ∅,
           referencedBy := ∅ }

section Stance

variable {c d : Cell}

theorem Cell.formula_eq_of_stance (h : d.stance = c.stance) : d.formula = c.formula :=
  (congrArg Cell.formula h :)

theorem Cell.references_eq_of_stance (h : d.stance = c.stance) : d.references = c.references :=
  (congrArg Cell.references h :)

theorem Cell.unresolved_eq_of_stance (h : d.stance = c.stance) : d.unresolved = c.unresolved :=
  (congrArg Cell.unresolved h :)

theorem Cell.tree?_eq_of_stance (h : d.stance = c.stance) : d.tree? = c.tree? :=
  (congrArg Cell.tree? h :)

theorem Cell.isTable_eq_of_stance (h : d.stance = c.stance) : d.isTable = c.isTable :=
  (congrArg Cell.isTable h :)

theorem Cell.stance_errorKind? {k : ErrorKind}
    (structural : k = .definition ∨ k = .circularReference) :
    c.stance.errorKind? = some k ↔ c.errorKind? = some k := by
  unfold stance errorKind?
  cases he : c.error with
  | none => rfl
  | some e =>
    rcases structural with rfl | rfl <;> cases e <;>
      simp [CellError.isStructural, CellError.kind]

theorem Cell.errorKind?_iff_of_stance (h : d.stance = c.stance) {k : ErrorKind}
    (structural : k = .definition ∨ k = .circularReference) :
    d.errorKind? = some k ↔ c.errorKind? = some k := by
  rw [← stance_errorKind? structural, h, stance_errorKind? structural]

/-- One error that is not structural may take the place of another. -/
theorem Cell.stance_eq_of_error (h : c.isStructural = false) (error : Option CellError)
    (he : error.any CellError.isStructural = false) :
    ({ c with error := error } : Cell).stance = c.stance := by
  have hfilter : ∀ error : Option CellError, error.any CellError.isStructural = false →
      error.filter CellError.isStructural = none := by
    intro error he
    cases error with
    | none => rfl
    | some e => simpa [Option.filter] using he
  simp only [stance, hfilter error he, hfilter c.error h]

end Stance

namespace Sheet

variable {s t u : Sheet} {x : CellId} {c : Cell}

/-- Both sheets have the same cell under an identity, up to what its stance leaves out. -/
def SameStance (s t : Sheet) (x : CellId) : Prop :=
  (t.cell? x).map Cell.stance = (s.cell? x).map Cell.stance

theorem SameStance.of_cell?_eq (h : t.cell? x = s.cell? x) : s.SameStance t x :=
  congrArg (Option.map Cell.stance) h

theorem SameStance.trans (h : s.SameStance t x) (h' : t.SameStance u x) : s.SameStance u x :=
  Eq.trans h' h

theorem SameStance.symm (h : s.SameStance t x) : t.SameStance s x :=
  Eq.symm h

theorem SameStance.cell? (h : s.SameStance t x) {d : Cell} (hd : t.cell? x = some d) :
    ∃ c, s.cell? x = some c ∧ d.stance = c.stance := by
  unfold SameStance at h
  rw [hd] at h
  obtain ⟨c, hc, he⟩ := Option.map_eq_some_iff.mp h.symm
  exact ⟨c, hc, he.symm⟩

theorem SameStance.of_stance {d : Cell} (hc : s.cell? x = some c) (hd : t.cell? x = some d)
    (h : d.stance = c.stance) : s.SameStance t x := by
  rw [SameStance, hc, hd, Option.map_some, Option.map_some, h]

theorem SameStance.referencesOf (h : s.SameStance t x) : t.referencesOf x = s.referencesOf x := by
  have hr : ∀ u : Sheet, u.referencesOf x =
      ((u.cell? x).map Cell.stance).elim [] fun c => c.references.ids := by
    intro u
    unfold Sheet.referencesOf
    cases u.cell? x <;> rfl
  rw [hr s, hr t, h]

end Sheet

namespace Edit

variable {e : Edit} {id x : CellId} {c : Cell}

theorem setDeep_sameStance (e : Edit) (id : CellId) (deep : IdSet) (x : CellId) :
    e.sheet.SameStance (e.setDeep id deep).sheet x := by
  by_cases hx : x = id
  · subst x
    cases hc : e.sheet.cell? id with
    | none =>
      apply Sheet.SameStance.of_cell?_eq
      have hm := Sheet.cell?_modify_self (f := fun c => { c with deep := deep }) (fun _ => rfl)
        e.sheet id
      rw [hc] at hm
      exact hm.trans hc.symm
    | some c => exact .of_stance hc (setDeep_cell? hc deep) rfl
  · exact .of_cell?_eq ((within_setDeep e id deep).others x hx)

/-- Recomputing a cell touches neither its text nor what may keep it from having a tree. -/
theorem Recomputed.stance_eq {d : Cell} (h : e.Recomputed c d) : d.stance = c.stance := by
  cases h with
  | structural _ h => rw [h]
  | treeless _ h => rw [h]
  | below hsane _ _ _ _ h => exact h ▸ Cell.stance_eq_of_error hsane _ rfl
  | failed hsane _ _ _ _ _ h => exact h ▸ Cell.stance_eq_of_error hsane _ rfl
  | shown hsane _ _ _ _ _ h => exact h ▸ Cell.stance_eq_of_error hsane none rfl

theorem recompute_sameStance (e : Edit) (id x : CellId) :
    e.sheet.SameStance (e.recompute id).sheet x := by
  by_cases hx : x = id
  · subst x
    cases hc : e.sheet.cell? id with
    | none =>
      rw [recompute, hc]
      exact .of_cell?_eq rfl
    | some c =>
      obtain ⟨d, hd, houtcome⟩ := recompute_outcome hc
      exact .of_stance hc hd houtcome.stance_eq
  · exact .of_cell?_eq ((within_recompute e id).others x hx)

theorem refreshAll_sameStance (e : Edit) (order : List CellId) (x : CellId) :
    e.sheet.SameStance (e.refreshAll order).sheet x := by
  induction order generalizing e with
  | nil => exact .of_cell?_eq rfl
  | cons id rest ih =>
    exact ((setDeep_sameStance e id _ x).trans (recompute_sameStance _ id x)).trans
      (ih (e.refresh id))

theorem recollectAll_sameStance (e : Edit) (order : List CellId) (x : CellId) :
    e.sheet.SameStance (order.foldl recollect e).sheet x := by
  induction order generalizing e with
  | nil => exact .of_cell?_eq rfl
  | cons id rest ih => exact (setDeep_sameStance e id _ x).trans (ih (e.recollect id))

theorem setReferences_sameStance (e : Edit) (id : CellId) (references : IdSet) (hx : x ≠ id) :
    e.sheet.SameStance (e.setReferences id references).sheet x := by
  cases hc : e.sheet.cell? id with
  | none =>
    rw [setReferences, hc]
    exact .of_cell?_eq rfl
  | some c =>
    unfold Sheet.SameStance
    rw [setReferences_cell? hc]
    cases hd : e.sheet.cell? x with
    | none => rfl
    | some d =>
      have hne : d.id ≠ id := by
        rw [Sheet.cell?_id hd]
        exact hx
      simp only [Option.map_some, Cell.relink, hne, ↓reduceIte]
      split_ifs <;> rfl

theorem modify_sameStance {f : Cell → Cell} (hf : ∀ c, (f c).id = c.id) (e : Edit) (hx : x ≠ id) :
    e.sheet.SameStance (e.modify id f).sheet x :=
  .of_cell?_eq (Sheet.cell?_modify_ne hf e.sheet hx)

/-- How a cell `c` may come out as `d` when it is settled on its formula: without a tree as the
formula fails or closes a cycle, or with the tree of its formula. -/
inductive Outcome (e : Edit) (c d : Cell) : Prop
  | failed (cause : FormulaError) (h : compile e.sheet.resolver c.formula = .error cause)
    (stance : d.stance = { c with content := .formula none, unresolved := cause.missing,
                                  error := some (.definition cause) : Cell }.stance)
  | circular (tree : Expr) (name : String) (h : compile e.sheet.resolver c.formula = .ok tree)
    (stance : d.stance = { c with content := .formula none, unresolved := [], references := ∅,
                                  error := some (.circular name) : Cell }.stance)
  | built (tree : Expr) (h : compile e.sheet.resolver c.formula = .ok tree)
    (stance : d.stance = { c with content := .formula (some tree), unresolved := [],
                                  references := tree.references, error := none : Cell }.stance)

theorem failDefinition_stance (hc : e.sheet.cell? id = some c) (cause : FormulaError) :
    ∃ d, (e.failDefinition id cause).sheet.cell? id = some d ∧
      d.stance = { c with content := .formula none, unresolved := cause.missing,
                          error := some (.definition cause) : Cell }.stance := by
  have hsame := refreshAll_sameStance (e.faulted id cause) ((e.faulted id cause).sheet.below id) id
  unfold Sheet.SameStance at hsame
  rw [faulted_cell? hc] at hsame
  exact Option.map_eq_some_iff.mp hsame

theorem failDefinition_others (hx : x ≠ id) (cause : FormulaError) :
    e.sheet.SameStance (e.failDefinition id cause).sheet x := by
  let f : Cell → Cell := fun c => { c with content := .formula none, unresolved := cause.missing }
  exact ((modify_sameStance (f := f) (fun _ => rfl) e hx).trans
    (.of_cell?_eq ((within_setError (e.modify id f) id _).others x hx))).trans
    (refreshAll_sameStance (e.faulted id cause) ((e.faulted id cause).sheet.below id) x)

theorem breakCycle_stance (hc : e.sheet.cell? id = some c) :
    ∃ d name, (e.breakCycle id).sheet.cell? id = some d ∧
      d.stance = { c with content := .formula none, references := ∅,
                          error := some (.circular name) : Cell }.stance := by
  obtain ⟨referencedBy, hself⟩ := setReferences_cell?_self hc ∅
  have hcell := setError_cell? (modify_cell? (f := Cell.blank) (fun _ => rfl) hself)
    (some (.circular ((e.unlink id).sheet.displayName id)))
  change (e.cutOff id).sheet.cell? id = _ at hcell
  have hsame := recollectAll_sameStance (e.cutOff id) ((e.cutOff id).sheet.below id) id
  rw [← breakCycle_eq, Sheet.SameStance, hcell] at hsame
  obtain ⟨d, hd, hstance⟩ := Option.map_eq_some_iff.mp hsame
  exact ⟨d, _, hd, hstance⟩

theorem breakCycle_others (hx : x ≠ id) : e.sheet.SameStance (e.breakCycle id).sheet x := by
  rw [breakCycle_eq]
  exact (((setReferences_sameStance e id ∅ hx).trans
    (modify_sameStance (f := Cell.blank) (fun _ => rfl) (e.setReferences id ∅) hx)).trans
    (.of_cell?_eq ((within_cutOff e id).others x hx))).trans
    (recollectAll_sameStance (e.cutOff id) ((e.cutOff id).sheet.below id) x)

theorem refreshed_sameStance (hc : e.sheet.cell? id = some c) :
    ∃ d, ((e.refreshed id).propagate id).sheet.cell? id = some d ∧
      d.stance = { c with error := none : Cell }.stance := by
  let e₁ := (e.setDeep id (e.sheet.collectDeep id)).clearStructural id
  obtain ⟨error, hcell, hclear⟩ :=
    clearStructural_cell? (setDeep_cell? hc (e.sheet.collectDeep id))
  have hsame := (recompute_sameStance e₁ id id).trans
    (refreshAll_sameStance (e₁.recompute id) ((e₁.recompute id).sheet.below id) id)
  unfold Sheet.SameStance at hsame
  rw [hcell] at hsame
  obtain ⟨d, hd, hstance⟩ := Option.map_eq_some_iff.mp hsame
  exact ⟨d, hd, hstance.trans (Cell.stance_eq_of_error hclear none rfl).symm⟩

theorem refreshed_others (hx : x ≠ id) :
    e.sheet.SameStance ((e.refreshed id).propagate id).sheet x :=
  (Sheet.SameStance.of_cell?_eq ((within_refreshed e id).others x hx)).trans
    (refreshAll_sameStance (e.refreshed id) ((e.refreshed id).sheet.below id) x)

/-- Settling a cell on its formula ends in one of three ways. -/
theorem applyFormula_outcome (hc : e.sheet.cell? id = some c) (formula : c.isTable = false) :
    ∃ d, (e.applyFormula id).sheet.cell? id = some d ∧ e.Outcome c d := by
  simp only [applyFormula, hc, formula, Bool.false_eq_true, ↓reduceIte]
  cases hcompile : compile e.sheet.resolver c.formula with
  | error cause =>
    obtain ⟨d, hd, hstance⟩ := failDefinition_stance hc cause
    exact ⟨d, hd, .failed cause hcompile hstance⟩
  | ok tree =>
    obtain ⟨referencedBy, hcell⟩ := planted_cell? hc tree
    simp only [settle_eq]
    split
    next =>
      obtain ⟨d, name, hd, hstance⟩ := breakCycle_stance hcell
      exact ⟨d, hd, .circular tree name hcompile hstance⟩
    next =>
      obtain ⟨d, hd, hstance⟩ := refreshed_sameStance hcell
      exact ⟨d, hd, .built tree hcompile hstance⟩

theorem applyFormula_others (e : Edit) (hx : x ≠ id) :
    e.sheet.SameStance (e.applyFormula id).sheet x := by
  rcases applyFormula_cases e id with ⟨c, hc, ht⟩ | ⟨hstay, -⟩
  · simp only [applyFormula, hc, ht, Bool.false_eq_true, ↓reduceIte]
    split
    next tree _ =>
      let f : Cell → Cell := fun c => { c with content := .formula (some tree), unresolved := [] }
      have hsame : e.sheet.SameStance (e.planted id tree).sheet x :=
        (modify_sameStance (f := f) (fun _ => rfl) e hx).trans
          (setReferences_sameStance (e.modify id f) id tree.references hx)
      rw [settle_eq]
      split
      next => exact hsame.trans (breakCycle_others hx)
      next => exact hsame.trans (refreshed_others hx)
    next cause _ => exact failDefinition_others hx cause
  · exact .of_cell?_eq (by rw [hstay])

/-- Settling a cell leaves all formulas as they are. -/
theorem applyFormula_formula (e : Edit) (id x : CellId) :
    ((e.applyFormula id).sheet.cell? x).map Cell.formula =
      (e.sheet.cell? x).map Cell.formula := by
  by_cases hx : x = id
  · subst x
    rcases applyFormula_cases e id with ⟨c, hc, ht⟩ | ⟨hstay, -⟩
    · obtain ⟨d, hd, houtcome⟩ := applyFormula_outcome hc ht
      have hformula : d.formula = c.formula := by
        cases houtcome with
        | failed _ _ h => exact (congrArg Cell.formula h :)
        | circular _ _ _ h => exact (congrArg Cell.formula h :)
        | built _ _ h => exact (congrArg Cell.formula h :)
      rw [hd, hc, Option.map_some, Option.map_some, hformula]
    · rw [hstay]
  · have hsame := congrArg (Option.map Cell.formula) (applyFormula_others e hx)
    rwa [Option.map_map, Option.map_map] at hsame

theorem rebind_formula (e : Edit) (name : String) (x : CellId) :
    ((e.rebind name).sheet.cell? x).map Cell.formula = (e.sheet.cell? x).map Cell.formula :=
  rebind_invariant (fun t => (t.cell? x).map Cell.formula = (e.sheet.cell? x).map Cell.formula)
    (fun e id h => (applyFormula_formula e id x).trans h) rfl name

theorem propagate_roster (e : Edit) (id : CellId) :
    (e.propagate id).sheet.roster = e.sheet.roster :=
  Sheet.roster_eq_of_outline (outline_refreshAll e (e.sheet.below id))

theorem breakCycle_roster (e : Edit) (id : CellId) :
    (e.breakCycle id).sheet.roster = e.sheet.roster := by
  have hcut := (cutOff_alters e id).roster
  rw [breakCycle_eq]
  exact (Sheet.roster_eq_of_outline (outline_recollectAll (e.cutOff id) _)).trans hcut

/-- Settling a cell names none. -/
theorem applyFormula_roster (e : Edit) (id : CellId) :
    (e.applyFormula id).sheet.roster = e.sheet.roster := by
  rcases applyFormula_cases e id with ⟨c, hc, ht⟩ | ⟨hstay, -⟩
  · simp only [applyFormula, hc, ht, Bool.false_eq_true, ↓reduceIte]
    split
    next tree _ =>
      have hroster := (planted_alters e id tree).roster
      have houtline := (within_refreshed (e.planted id tree) id).outline
      rw [settle_eq]
      split
      next => exact (breakCycle_roster _ id).trans hroster
      next =>
        exact ((propagate_roster _ id).trans (Sheet.roster_eq_of_outline houtline)).trans hroster
    next cause _ => exact (propagate_roster _ id).trans (faulted_alters e id cause).roster
  · rw [hstay]

theorem rebind_roster (e : Edit) (name : String) :
    (e.rebind name).sheet.roster = e.sheet.roster :=
  rebind_invariant (fun t => t.roster = e.sheet.roster)
    (fun e id h => (applyFormula_roster e id).trans h) rfl name

end Edit

end LiveSheet
