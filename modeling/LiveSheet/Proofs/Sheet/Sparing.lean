import LiveSheet.Proofs.Sheet.Apart

namespace LiveSheet

namespace Edit

open Sheet

variable {e e' e'' : Edit} {id x : CellId} {order : List CellId}

/-- What happened so far to the cell, as those who watch it were told. -/
def eventsOf (e : Edit) (x : CellId) : List CellEvent :=
  e.changes.filterMap fun change => if change.cell = x then some change.event else none

theorem eventsOf_announce (e : Edit) (id x : CellId) (event : CellEvent) :
    (e.announce id event).eventsOf x = e.eventsOf x ++ if id = x then [event] else [] := by
  simp only [eventsOf, announce, List.filterMap_append]
  by_cases hx : id = x <;> simp [hx]

/-- Between the edits, nothing but back references changes in the cell, and nothing is
told of it. -/
structure Spares (e e' : Edit) (x : CellId) : Prop where
  own : e.sheet.SameOwn e'.sheet x
  events : e'.eventsOf x = e.eventsOf x

theorem Spares.refl (e : Edit) (x : CellId) : e.Spares e x :=
  ⟨rfl, rfl⟩

theorem Spares.trans (h : e.Spares e' x) (h' : e'.Spares e'' x) : e.Spares e'' x :=
  ⟨h.own.trans h'.own, h'.events.trans h.events⟩

theorem Spares.of_silent (own : e.sheet.SameOwn e'.sheet x) (changes : e'.changes = e.changes) :
    e.Spares e' x :=
  ⟨own, by rw [eventsOf, changes]; rfl⟩

theorem Spares.announce (h : e.Spares e' x) (hx : x ≠ id) (event : CellEvent) :
    e.Spares (e'.announce id event) x := by
  refine ⟨h.own, ?_⟩
  rw [eventsOf_announce, if_neg hx.symm, List.append_nil]
  exact h.events

theorem setReferences_sameOwn (e : Edit) (references : IdSet) (hx : x ≠ id) :
    e.sheet.SameOwn (e.setReferences id references).sheet x := by
  cases hc : e.sheet.cell? id with
  | none =>
    rw [setReferences, hc]
    exact .of_cell?_eq rfl
  | some c =>
    unfold Sheet.SameOwn
    rw [setReferences_cell? hc]
    cases hd : e.sheet.cell? x with
    | none => rfl
    | some d =>
      have hne : d.id ≠ id := by
        rw [Sheet.cell?_id hd]
        exact hx
      simp [Cell.relink_own _ _ hne]

theorem spares_setReferences (e : Edit) (references : IdSet) (hx : x ≠ id) :
    e.Spares (e.setReferences id references) x := by
  refine .of_silent (setReferences_sameOwn e references hx) ?_
  unfold setReferences
  split <;> rfl

section Others

variable (e : Edit) (hx : x ≠ id)
include hx

theorem spares_modify {f : Cell → Cell} (hf : ∀ c, (f c).id = c.id) :
    e.Spares (e.modify id f) x :=
  .of_silent (.of_cell?_eq (cell?_modify_ne hf e.sheet hx)) rfl

theorem spares_setValue (v : Value) : e.Spares (e.setValue id v) x := by
  unfold setValue
  split
  next => exact .refl e x
  next =>
    split
    next => exact .refl e x
    next =>
      have hmodify := spares_modify e hx (f := fun c => { c with value := v }) fun _ => rfl
      exact hmodify.announce hx _

theorem spares_setError (error : Option CellError) : e.Spares (e.setError id error) x := by
  unfold setError
  split
  next => exact .refl e x
  next =>
    split
    next => exact .refl e x
    next =>
      have hmodify := spares_modify e hx (f := fun c => { c with error := error }) fun _ => rfl
      exact hmodify.announce hx _

theorem spares_setFormula (formula : String) : e.Spares (e.setFormula id formula) x := by
  unfold setFormula
  split
  next => exact .refl e x
  next =>
    split
    next => exact .refl e x
    next =>
      have hmodify := spares_modify e hx (f := fun c => { c with formula := formula }) fun _ => rfl
      exact hmodify.announce hx _

theorem spares_setDeep (deep : IdSet) : e.Spares (e.setDeep id deep) x :=
  spares_modify e hx (f := fun c => { c with deep := deep }) fun _ => rfl

theorem spares_clearStructural : e.Spares (e.clearStructural id) x := by
  unfold clearStructural
  split
  next => exact spares_setError e hx none
  next => exact .refl e x

theorem spares_recompute : e.Spares (e.recompute id) x := by
  unfold recompute
  split
  next => exact .refl e x
  next =>
    split
    next => exact .refl e x
    next =>
      split
      next => exact .refl e x
      next =>
        split
        next => exact spares_setError e hx _
        next =>
          split
          next => exact (spares_setError e hx none).trans (spares_setValue _ hx _)
          next => exact spares_setError e hx _

theorem spares_refresh : e.Spares (e.refresh id) x :=
  (spares_setDeep e hx _).trans (spares_recompute _ hx)

theorem spares_faulted (cause : FormulaError) : e.Spares (e.faulted id cause) x := by
  have hmodify := spares_modify e hx
    (f := fun c => { c with content := .formula none, unresolved := cause.missing }) fun _ => rfl
  exact hmodify.trans (spares_setError _ hx _)

theorem spares_planted (tree : Expr) : e.Spares (e.planted id tree) x := by
  have hmodify := spares_modify e hx
    (f := fun c => { c with content := .formula (some tree), unresolved := [] }) fun _ => rfl
  exact hmodify.trans (spares_setReferences _ _ hx)

theorem spares_refreshed : e.Spares (e.refreshed id) x :=
  ((spares_setDeep e hx _).trans (spares_clearStructural _ hx)).trans (spares_recompute _ hx)

theorem spares_cutOff : e.Spares (e.cutOff id) x := by
  have hunlink := (spares_setReferences e ∅ hx).trans
    (spares_modify (e.setReferences id ∅) hx (f := Cell.blank) fun _ => rfl)
  exact hunlink.trans (spares_setError _ hx _)

end Others

theorem spares_foldl {step : Edit → CellId → Edit}
    (steps : ∀ (e : Edit) id, x ≠ id → e.Spares (step e id) x) (e : Edit) (hx : x ∉ order) :
    e.Spares (order.foldl step e) x := by
  induction order generalizing e with
  | nil => exact .refl e x
  | cons id rest ih =>
    obtain ⟨hne, hrest⟩ : x ≠ id ∧ x ∉ rest := by simpa using hx
    exact (steps e id hne).trans (ih (step e id) hrest)

theorem spares_refreshAll (e : Edit) (hx : x ∉ order) : e.Spares (e.refreshAll order) x :=
  spares_foldl (fun e _ => spares_refresh e) e hx

theorem spares_recollectAll (e : Edit) (hx : x ∉ order) :
    e.Spares (order.foldl recollect e) x :=
  spares_foldl (fun e _ hx => spares_setDeep e hx _) e hx

end Edit

end LiveSheet
