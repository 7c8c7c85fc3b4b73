import LiveSheet.Proofs.Sheet.Applied

namespace LiveSheet

open Relation

/-- The value that an event brings. -/
def CellEvent.value? : CellEvent → Option Value
  | .valueChanged v => some v
  | _ => none

/-- The values of which those who watch a cell are told in the course of an edit. -/
def Edit.told (e : Edit) (x : CellId) : List Value :=
  e.changes.filterMap fun change => if change.cell = x then change.event.value? else none

/-- The cell shows a value, and depends on no error. -/
structure Sheet.Clean (s : Sheet) (c : Cell) : Prop where
  error : c.error = none
  clear : ¬s.BelowError c

namespace Edit

open Sheet

variable {e e' : Edit} {id x : CellId} {c d : Cell} {order : List CellId}

theorem told_eq (e : Edit) (x : CellId) : e.told x = (e.eventsOf x).filterMap CellEvent.value? := by
  simp only [told, eventsOf, List.filterMap_filterMap]
  refine List.filterMap_congr fun change _ => ?_
  by_cases hx : change.cell = x <;> simp [hx]

/-- Nobody is told of the value of a cell of which nobody is told anything. -/
theorem Spares.told_eq (h : e.Spares e' x) : e'.told x = e.told x := by
  rw [Edit.told_eq, h.events, Edit.told_eq]

theorem told_announce (e : Edit) (id x : CellId) (event : CellEvent) :
    (e.announce id event).told x =
    e.told x ++ if id = x then event.value?.toList else [] := by
  simp only [told, announce, List.filterMap_append]
  by_cases hx : id = x
  · cases hv : event.value? <;> simp [hx, hv]
  · simp [hx]

/-- No one is told of a value by an event that brings none. -/
theorem told_announce_of_none (e : Edit) (id x : CellId) {event : CellEvent}
    (h : event.value? = none) : (e.announce id event).told x = e.told x := by
  rw [told_announce, h]
  simp

theorem told_setError (e : Edit) (id x : CellId) (error : Option CellError) :
    (e.setError id error).told x = e.told x := by
  unfold setError
  split
  next => rfl
  next =>
    split
    next => rfl
    next => exact told_announce_of_none _ id x rfl

theorem told_setFormula (e : Edit) (id x : CellId) (formula : String) :
    (e.setFormula id formula).told x = e.told x := by
  unfold setFormula
  split
  next => rfl
  next =>
    split
    next => rfl
    next => exact told_announce_of_none _ id x rfl

theorem told_setReferences (e : Edit) (id x : CellId) (references : IdSet) :
    (e.setReferences id references).told x = e.told x := by
  unfold setReferences
  split <;> rfl

theorem told_clearStructural (e : Edit) (id x : CellId) :
    (e.clearStructural id).told x = e.told x := by
  unfold clearStructural
  split
  next => exact told_setError e id x none
  next => rfl

theorem told_setValue_self (hc : e.sheet.cell? id = some c) (v : Value) :
    (e.setValue id v).told id = e.told id ∨
      (e.setValue id v).sheet.cell? id = some { c with value := v } ∧
        (e.setValue id v).told id = e.told id ++ [v] := by
  have hcell := setValue_cell? hc v
  simp only [setValue, hc] at hcell ⊢
  split
  next => exact .inl rfl
  next hne =>
    rw [if_neg hne, if_neg hne] at hcell
    exact .inr ⟨hcell, by rw [told_announce, if_pos rfl]; rfl⟩

/-- Those who watch a cell are told of nothing more, or of the value that its tree now gives. -/
def Tells (e e' : Edit) (x : CellId) : Prop :=
  e'.told x = e.told x ∨ ∃ d, e'.sheet.cell? x = some d ∧ d.error = none ∧ d.tree? ≠ none ∧
    e'.told x = e.told x ++ [d.value]

/-- Those who watch a cell are told of nothing more, or of the value that it now shows; the latter
only if the cell is affected. -/
def Voices (affected : Prop) (e e' : Edit) (x : CellId) : Prop :=
  e'.told x = e.told x ∨ affected ∧ ∃ d, e'.sheet.cell? x = some d ∧ e'.sheet.Clean d ∧
    e'.told x = e.told x ++ [d.value]

theorem Voices.mono {affected affected' : Prop} (h : Voices affected e e' x)
    (weaker : affected → affected') : Voices affected' e e' x :=
  h.imp_right fun ⟨ha, hd⟩ => ⟨weaker ha, hd⟩

theorem recompute_tells (e : Edit) (id : CellId) : e.Tells (e.recompute id) id := by
  unfold recompute
  split
  next => exact .inl rfl
  next c hc =>
    split
    next => exact .inl rfl
    next =>
      split
      next => exact .inl rfl
      next tree ht =>
        split
        next => exact .inl (told_setError e id id _)
        next =>
          split
          next v _ =>
            have htold := told_setError e id id none
            rcases told_setValue_self (setError_cell? hc none) v with h | ⟨hd, h⟩
            · exact .inl (h.trans htold)
            · refine .inr ⟨_, hd, rfl, ?_, by rw [h, htold]⟩
              exact fun hn => (by cases ht.symm.trans hn)
          next => exact .inl (told_setError e id id _)

theorem told_recollectAll (e : Edit) (order : List CellId) (x : CellId) :
    (order.foldl recollect e).told x = e.told x := by
  induction order generalizing e with
  | nil => rfl
  | cons id rest ih => exact ih (e.recollect id)

theorem refreshAll_tells_of_nodup (distinct : order.Nodup) (e : Edit) (x : CellId) :
    e.Tells (e.refreshAll order) x := by
  induction order generalizing e with
  | nil => exact .inl rfl
  | cons id rest ih =>
    obtain ⟨hid, hrest⟩ := List.nodup_cons.mp distinct
    by_cases hx : x = id
    · subst x
      change (_ : Prop) ∨ ∃ d, ((e.refresh id).refreshAll rest).sheet.cell? id = some d ∧ _
      rw [refreshAll_others _ hid]
      have htold := (spares_refreshAll (e.refresh id) hid).told_eq
      rcases recompute_tells (e.setDeep id (e.sheet.collectDeep id)) id with h | ⟨d, hd, he, ht, h⟩
      · exact .inl (htold.trans h)
      · exact .inr ⟨d, hd, he, ht, htold.trans h⟩
    · have hstay : (e.refresh id).told x = e.told x := (spares_refresh e hx).told_eq
      have htells := ih hrest (e.refresh id)
      unfold Tells at htells
      rw [hstay] at htells
      exact htells

/-- Of each cell of an order, at most one value is told, which the cell then shows. -/
theorem refreshAll_voices (sound : (e.refreshAll order).sheet.Sound) (distinct : order.Nodup)
    (sorted : order.Pairwise fun a b => a ∉ e.sheet.dependentsOf b)
    (closed : ∀ x ∈ order, ∀ y ∈ e.sheet.dependentsOf x, y ∈ order) (x : CellId) :
    Voices (x ∈ order) e (e.refreshAll order) x := by
  by_cases hx : x ∈ order
  · rcases refreshAll_tells_of_nodup distinct e x with h | ⟨d, hd, herror, htree, h⟩
    · exact .inl h
    · obtain ⟨c, hc, -⟩ := cell?_outline (outline_refreshAll e order) hd
      obtain ⟨d', hd', hrecomputed⟩ := refreshAll_recomputed sound distinct sorted closed hx hc
      obtain rfl := Option.some.inj (hd.symm.trans hd')
      exact .inr ⟨hx, d, hd, ⟨herror, hrecomputed.clear herror htree⟩, h⟩
  · exact .inl (spares_refreshAll e hx).told_eq

theorem propagate_voices (sound : (e.propagate id).sheet.Sound) (x : CellId) :
    Voices (TransGen e.sheet.Refers x id) e (e.propagate id) x := by
  obtain ⟨hlinked, hdistinct⟩ := linked_of_propagate sound
  rw [← hlinked.mem_below_iff hdistinct]
  exact refreshAll_voices sound (below_nodup hdistinct id) (hlinked.below_sorted id)
    (fun _ hy _ hz => hlinked.below_closed hy hz) x

theorem propagate_voices_of_same (same : ∀ x, x ≠ id → e.sheet.SameOwn e'.sheet x)
    (sound : (e'.propagate id).sheet.Sound) (told : e'.told x = e.told x) :
    Voices (TransGen e.sheet.Refers x id) e (e'.propagate id) x := by
  unfold Voices
  rw [← told]
  apply (propagate_voices sound x).imp_right
  rintro ⟨hreach, h⟩
  have hne : x ≠ id := fun he => (linked_of_propagate sound).1.acyclic id (he ▸ hreach)
  exact ⟨(reaches_iff_of_same same hne).mp hreach, h⟩

theorem told_planted (e : Edit) (id : CellId) (tree : Expr) (x : CellId) :
    (e.planted id tree).told x = e.told x :=
  told_setReferences (e.modify id _) id x _

theorem told_breakCycle (e : Edit) (id x : CellId) : (e.breakCycle id).told x = e.told x := by
  rw [breakCycle_eq, told_recollectAll]
  exact (told_setError (e.unlink id) id x _).trans (told_setReferences e id x ∅)

theorem refreshed_tells (e : Edit) (id : CellId) : e.Tells (e.refreshed id) id := by
  have htold := told_clearStructural (e.setDeep id (e.sheet.collectDeep id)) id id
  have htells := recompute_tells
    ((e.setDeep id (e.sheet.collectDeep id)).clearStructural id) id
  unfold Tells at htells
  rw [htold] at htells
  exact htells

theorem built_voices {tree : Expr}
    (hsound : (((e.planted id tree).refreshed id).propagate id).sheet.Sound)
    (applied : e.Applied id c (((e.planted id tree).refreshed id).propagate id)) (x : CellId) :
    Voices (x = id ∨ TransGen e.sheet.Refers x id) e
      (((e.planted id tree).refreshed id).propagate id) x := by
  have hsame : ∀ x, x ≠ id → e.sheet.SameOwn ((e.planted id tree).refreshed id).sheet x :=
    fun x hx => ((spares_planted e hx tree).trans (spares_refreshed _ hx)).own
  by_cases hx : x = id
  · subst x
    have hstay := (propagate_voices hsound id).resolve_right fun h =>
      (linked_of_propagate hsound).1.acyclic id h.1
    have hself := propagate_self hsound
    unfold Voices
    generalize ((e.planted id tree).refreshed id).propagate id = e' at hstay hself applied ⊢
    rw [hstay, hself, ← told_planted e id tree]
    rcases refreshed_tells (e.planted id tree) id with h | ⟨d, hd, herror, htree, h⟩
    · exact .inl h
    · refine .inr ⟨.inl rfl, d, hd, ⟨herror, ?_⟩, h⟩
      rw [← hself] at hd
      cases applied with
      | failed _ _ here =>
        obtain rfl := Option.some.inj (here.symm.trans hd)
        cases herror
      | circular _ _ _ d' _ here eq =>
        obtain rfl := Option.some.inj (here.symm.trans hd)
        rw [eq] at herror
        cases herror
      | built _ _ d' _ _ here recomputed =>
        obtain rfl := Option.some.inj (here.symm.trans hd)
        exact recomputed.clear herror htree
  · have htold := ((spares_planted e hx tree).trans (spares_refreshed _ hx)).told_eq
    exact (propagate_voices_of_same hsame hsound htold).mono .inr

/-- Of the settled cell and each one that depends on it, at most one value is told, which the cell
then shows. -/
theorem applyFormula_voices (sound : e.sheet.SoundBut id) (hc : e.sheet.cell? id = some c)
    (formula : c.isTable = false) (x : CellId) :
    Voices (x = id ∨ TransGen e.sheet.Refers x id) e (e.applyFormula id) x := by
  have hsound := applyFormula_sound sound hc formula
  have happlied := applyFormula_applied sound hc formula
  simp only [applyFormula, hc, formula, Bool.false_eq_true, ↓reduceIte] at hsound happlied ⊢
  cases hcompile : compile e.sheet.resolver c.formula with
  | error cause =>
    rw [hcompile] at hsound
    have hsame : ∀ x, x ≠ id → e.sheet.SameOwn (e.faulted id cause).sheet x :=
      fun x hx => (spares_faulted e hx cause).own
    exact (propagate_voices_of_same hsame hsound (told_setError (e.modify id _) id x _)).mono .inr
  | ok tree =>
    rw [hcompile] at hsound happlied
    simp only [settle_eq] at hsound happlied ⊢
    split at hsound
    next hmem =>
      rw [if_pos hmem]
      exact .inl ((told_breakCycle _ id x).trans (told_planted e id tree x))
    next hmem =>
      rw [if_neg hmem] at happlied ⊢
      exact built_voices hsound happlied x

end Edit

end LiveSheet
