import LiveSheet.Proofs.Sheet.Inversion

namespace LiveSheet

namespace Sheet

variable {s : Sheet} {id : CellId}

/-- A table that takes the place of another one is what is then told and propagated. -/
theorem tableChanged_eq {old : Grid} (h : s.table id = .ok old) (grid : Grid) :
    (s.modify id fun c => { c with content := .table grid }).unchanged.tableChanged id =
      s.replaceGrid id grid := by
  obtain ⟨c, hc, -⟩ := table_eq_ok h
  have hnow : (s.modify id fun c => { c with content := .table grid }).cell? id =
      some { c with content := .table grid } := by
    rw [cell?_modify_self (f := fun c => { c with content := .table grid }) (fun _ => rfl), hc,
      Option.map_some]
  simp only [Edit.tableChanged, unchanged, hnow]
  rfl

end Sheet

namespace Edit

variable {e : Edit} {x : CellId}

/-- The edit with some changes that came before it. -/
def after (earlier : List Change) (e : Edit) : Edit :=
  ⟨e.sheet, earlier ++ e.changes⟩

theorem announce_after (earlier : List Change) (e : Edit) (id : CellId) (event : CellEvent) :
    (e.after earlier).announce id event = (e.announce id event).after earlier := by
  simp [after, announce]

@[simp]
theorem after_sheet (earlier : List Change) (e : Edit) : (e.after earlier).sheet = e.sheet :=
  rfl

theorem setValue_after (earlier : List Change) (e : Edit) (id : CellId) (v : Value) :
    (e.after earlier).setValue id v = (e.setValue id v).after earlier := by
  simp only [setValue, after_sheet]
  cases e.sheet.cell? id with
  | none => rfl
  | some c =>
    dsimp only
    split
    next => rfl
    next => exact announce_after earlier (e.modify id _) id _

theorem setError_after (earlier : List Change) (e : Edit) (id : CellId)
    (error : Option CellError) :
    (e.after earlier).setError id error = (e.setError id error).after earlier := by
  simp only [setError, after_sheet]
  cases e.sheet.cell? id with
  | none => rfl
  | some c =>
    dsimp only
    split
    next => rfl
    next => exact announce_after earlier (e.modify id _) id _

theorem recompute_after (earlier : List Change) (e : Edit) (id : CellId) :
    (e.after earlier).recompute id = (e.recompute id).after earlier := by
  simp only [recompute, after_sheet, setError_after, setValue_after]
  cases e.sheet.cell? id with
  | none => rfl
  | some c =>
    dsimp only
    split
    next => rfl
    next =>
      cases c.tree? with
      | none => rfl
      | some tree =>
        cases c.deep.ids.find? e.sheet.hasError with
        | some broken => rfl
        | none =>
          dsimp only
          cases tree.eval e.sheet.context <;> rfl

theorem refreshAll_after (earlier : List Change) (e : Edit) (order : List CellId) :
    (e.after earlier).refreshAll order = (e.refreshAll order).after earlier := by
  induction order generalizing e with
  | nil => rfl
  | cons id rest ih =>
    have hstep : (e.after earlier).refresh id = (e.refresh id).after earlier :=
      recompute_after earlier (e.setDeep id (e.sheet.collectDeep id)) id
    rw [refreshAll, List.foldl_cons, hstep]
    exact ih (e.refresh id)

/-- A cell is not there, and nothing was told of it. -/
structure Without (x : CellId) (e : Edit) : Prop where
  absent : e.sheet.cell? x = none
  silent : ∀ change ∈ e.changes, change.cell ≠ x

namespace Without

theorem modify (h : e.Without x) {f : Cell → Cell} (hf : ∀ c, (f c).id = c.id) (id : CellId) :
    (e.modify id f).Without x := by
  refine ⟨?_, h.silent⟩
  have habsent := Sheet.not_mem_ids_iff.mpr h.absent
  rw [← Sheet.ids_modify hf e.sheet id] at habsent
  exact Sheet.not_mem_ids_iff.mp habsent

theorem announce (h : e.Without x) {id : CellId} {c : Cell} (hc : e.sheet.cell? id = some c)
    (event : CellEvent) : (e.announce id event).Without x := by
  refine ⟨h.absent, fun change hm => ?_⟩
  rcases List.mem_append.mp hm with hm | hm
  · exact h.silent change hm
  · obtain rfl := List.mem_singleton.mp hm
    rintro rfl
    rw [h.absent] at hc
    cases hc

theorem setValue (h : e.Without x) (id : CellId) (v : Value) : (e.setValue id v).Without x := by
  unfold Edit.setValue
  split
  next => exact h
  next c hc =>
    split
    next => exact h
    next =>
      exact (h.announce hc (.valueChanged v)).modify (f := fun c => { c with value := v })
        (fun _ => rfl) id

theorem setError (h : e.Without x) (id : CellId) (error : Option CellError) :
    (e.setError id error).Without x := by
  unfold Edit.setError
  split
  next => exact h
  next c hc =>
    split
    next => exact h
    next =>
      exact (h.announce hc (.errorChanged error)).modify (f := fun c => { c with error := error })
        (fun _ => rfl) id

theorem recompute (h : e.Without x) (id : CellId) : (e.recompute id).Without x := by
  unfold Edit.recompute
  split
  next => exact h
  next =>
    split
    next => exact h
    next =>
      split
      next => exact h
      next =>
        split
        next => exact h.setError id _
        next =>
          split
          next => exact (h.setError id none).setValue id _
          next => exact h.setError id _

theorem refreshAll (h : e.Without x) (order : List CellId) : (e.refreshAll order).Without x := by
  induction order generalizing e with
  | nil => exact h
  | cons id rest ih =>
    have hdeep : (e.setDeep id (e.sheet.collectDeep id)).Without x :=
      h.modify (f := fun c => { c with deep := e.sheet.collectDeep id }) (fun _ => rfl) id
    exact ih (hdeep.recompute id)

end Without

end Edit

namespace Subscriptions

theorem deliver_append (s : Subscriptions) (before rest : List Change) :
    s.deliver (before ++ rest) = s.deliver before ++ s.deliver rest :=
  List.flatMap_append

theorem deliver_none (changes : List Change) : none.deliver changes = [] := by
  simp [deliver, handlesOf, none]

/-- Those who watched a cell are not missed when nothing is told of it. -/
theorem deliver_dropCell (s : Subscriptions) {id : CellId} {changes : List Change}
    (silent : ∀ change ∈ changes, change.cell ≠ id) :
    (s.dropCell id).deliver changes = s.deliver changes := by
  refine List.flatMap_congr fun change hm => ?_
  have hhandles : (s.dropCell id).handlesOf change.cell = s.handlesOf change.cell := by
    rw [handlesOf, handlesOf, dropCell, List.filter_filter]
    refine congrArg (List.map Prod.snd) (List.filter_congr fun entry _ => ?_)
    by_cases hcell : entry.1 = change.cell
    · simp [hcell, silent change hm]
    · simp [hcell]
  rw [hhandles]

end Subscriptions

namespace Course

/-- A course that goes on from here with an edit of the sheet. -/
def accept (c : Course) (e : Edit) : Course :=
  ⟨{ c.session with sheet := e.sheet },
    c.delivered ++ c.session.subscriptions.deliver e.changes⟩

/-- How a procedure comes out that is this edit of the sheet in one go, or fails
and does nothing. -/
def outcome {α : Type} (c : Course) :
    Except SheetError (α × Edit) → EStateM.Result SheetError Course α
  | .ok (a, e) => .ok a (c.accept e)
  | .error e => .error e c

end Course

namespace Procedure

variable {c : Course}

@[simp]
theorem run_sheet : sheet.run c = .ok c.session.sheet c :=
  rfl

@[simp]
theorem run_putSheet (s : Sheet) :
    (putSheet s).run c = .ok () { c with session := { c.session with sheet := s } } :=
  rfl

@[simp]
theorem run_getSubscriptions : subscriptions.run c = .ok c.session.subscriptions c :=
  rfl

@[simp]
theorem run_putSubscriptions (s : Subscriptions) : (putSubscriptions s).run c =
    .ok () { c with session := { c.session with subscriptions := s } } :=
  rfl

@[simp]
theorem run_edit (f : Edit → Edit) :
    (edit f).run c = .ok () (c.accept (f c.session.sheet.unchanged)) :=
  rfl

@[simp]
theorem run_map {α β : Type} (f : α → β) (p : Procedure α) : (f <$> p).run c =
    match p.run c with
    | .ok a c => .ok (f a) c
    | .error e c => .error e c := by
  change EStateM.map f p c = _
  unfold EStateM.map EStateM.run
  cases p c <;> rfl

@[simp]
theorem run_ofExcept {α : Type} (result : Except SheetError α) :
    (ofExcept result : Procedure α).run c =
      match result with
      | .ok a => .ok a c
      | .error e => .error e c := by
  cases result <;> rfl

theorem run_claimName (wanted : Option String) : (claimName wanted).run c =
    match c.session.sheet.claimName wanted with
    | .ok (name, s) => .ok name { c with session := { c.session with sheet := s } }
    | .error e => .error e c := by
  cases wanted with
  | none => rfl
  | some name =>
    by_cases valid : isValidName name = true
    · by_cases used : (c.session.sheet.idOf? name).isSome = true <;>
        simp [claimName, Sheet.claimName, valid, used]
    · simp [claimName, Sheet.claimName, valid]

theorem run_createCell (name formula : Option String) :
    (createCell name formula).run c = c.outcome (c.session.sheet.createCell name formula) := by
  simp only [createCell, EStateM.run_bind, run_claimName, Sheet.createCell]
  cases c.session.sheet.claimName name with
  | error e => rfl
  | ok claimed => rfl

theorem run_createTable (name : Option String) (rows cols : Nat) :
    (createTable name rows cols).run c =
      c.outcome (c.session.sheet.createTable name rows cols) := by
  simp only [createTable, EStateM.run_bind, run_claimName, Sheet.createTable]
  cases c.session.sheet.claimName name with
  | error e => rfl
  | ok claimed => rfl

/-- The second look for the cell cannot fail, as telling of its deletion does not change the sheet.
What is told after that does not concern it, so it makes no difference that nobody
watches it then. -/
theorem run_deleteCell (id : CellId) : (deleteCell id).run c =
    match c.session.sheet.deleteCell id with
    | .ok e => .ok () ⟨⟨e.sheet, c.session.subscriptions.dropCell id⟩,
        c.delivered ++ c.session.subscriptions.deliver e.changes⟩
    | .error e => .error e c := by
  cases hc : c.session.sheet.cell? id with
  | none => simp [deleteCell, Sheet.deleteCell, Sheet.cell, hc]
  | some gone =>
    let s := c.session.sheet.removeCell gone
    let order := s.affectedOrder gone.referencedBy.ids
    have hgone : s.unchanged.Without id := by
      obtain rfl := Sheet.cell?_id hc
      exact ⟨(Sheet.cell?_removeCell ..).trans (if_pos rfl), nofun⟩
    have hafter : (s.unchanged.announce id .deleteRequested).refreshAll order =
        (s.unchanged.refreshAll order).after [⟨id, .deleteRequested⟩] :=
      Edit.refreshAll_after [⟨id, .deleteRequested⟩] s.unchanged order
    have hsilent := Subscriptions.deliver_dropCell c.session.subscriptions
      (hgone.refreshAll order).silent
    simp only [Sheet.deleteCell, Sheet.cell, hc]
    rw [hafter, Edit.after, Subscriptions.deliver_append, ← hsilent]
    simp [deleteCell, notify, hc, Course.accept, Sheet.unchanged, Edit.announce, s, order]

theorem run_setFormula (id : CellId) (formula : String) : (setFormula id formula).run c =
    c.outcome ((c.session.sheet.setFormula id formula).map fun e => ((), e)) := by
  cases hc : c.session.sheet.cell id with
  | error e => simp [setFormula, Sheet.setFormula, hc, Except.map, Course.outcome]
  | ok d =>
    by_cases table : d.isTable = true <;>
      simp [setFormula, Sheet.setFormula, hc, table, Except.map, Course.outcome]

theorem run_rename (id : CellId) (new : String) : (rename id new).run c =
    match c.session.sheet.rename id new with
    | some e => .ok true (c.accept e)
    | none => .ok false c := by
  cases hc : c.session.sheet.cell? id with
  | none => simp [rename, Sheet.rename, hc]
  | some d =>
    by_cases same : d.name = new
    · simp [rename, Sheet.rename, hc, same, Course.accept, Sheet.unchanged, Subscriptions.deliver]
    · by_cases refused : isValidName new = false ∨ (c.session.sheet.idOf? new).isSome = true <;>
        simp [rename, Sheet.rename, hc, same, refused, Course.accept]

theorem run_setTableValue (id : CellId) (row col : Nat) (x : Float) :
    (setTableValue id row col x).run c =
      c.outcome ((c.session.sheet.setTableValue id row col x).map fun e => ((), e)) := by
  cases hg : c.session.sheet.table id with
  | error e => simp [setTableValue, Sheet.setTableValue, hg, Except.map, Course.outcome]
  | ok grid =>
    cases hset : grid.set row col x with
    | error e =>
      simp [setTableValue, Sheet.setTableValue, hg, hset, Except.map, Except.mapError,
        Course.outcome]
    | ok changed =>
      have htold := Sheet.tableChanged_eq hg changed
      simp [setTableValue, Sheet.setTableValue, putGrid, hg, hset, Except.map, Except.mapError,
        Course.outcome, Course.accept, htold]

theorem run_resizeTable (id : CellId) (rows cols : Nat) : (resizeTable id rows cols).run c =
    c.outcome ((c.session.sheet.resizeTable id rows cols).map fun e => ((), e)) := by
  cases hg : c.session.sheet.table id with
  | error e => simp [resizeTable, Sheet.resizeTable, hg, Except.map, Course.outcome]
  | ok grid =>
    have htold := Sheet.tableChanged_eq hg (grid.resize rows cols)
    simp [resizeTable, Sheet.resizeTable, putGrid, hg, Except.map, Course.outcome, Course.accept,
      htold]

/-- Taking back a subscription that is not there changes nothing. -/
theorem run_unsubscribe (id : CellId) (handle : Handle) : (unsubscribe id handle).run c =
    let s := c.session.subscriptions
    if s.has id handle then
      .ok true { c with session := { c.session with subscriptions := s.remove id handle } }
    else .ok false c := by
  let s := c.session.subscriptions
  change EStateM.Result.ok (s.live.length != (s.remove id handle).live.length)
    { c with session := { c.session with subscriptions := s.remove id handle } } = _
  by_cases there : (id, handle) ∈ s.live
  · have hshorter : (s.remove id handle).live.length < s.live.length :=
      List.length_filter_lt_length_iff_exists.mpr ⟨_, there, by simp⟩
    have hhas : s.has id handle = true := by simpa [Subscriptions.has] using there
    rw [if_pos hhas, bne_iff_ne.mpr hshorter.ne']
  · have hsame : s.remove id handle = s := by
      rw [Subscriptions.remove, List.filter_eq_self.mpr fun entry hm => ?_]
      rw [bne_iff_ne]
      rintro rfl
      exact there hm
    have hhas : s.has id handle = false := by simpa [Subscriptions.has] using there
    rw [hsame, bne_self_eq_false, if_neg (Bool.eq_false_iff.mp hhas)]

theorem onSheet_createCell (s : Sheet) (name formula : Option String) :
    (createCell name formula).onSheet s =
      (s.createCell name formula).map fun made => (made.1, made.2.sheet) := by
  rw [onSheet, run_createCell]
  cases s.createCell name formula <;> rfl

theorem onSheet_setFormula (s : Sheet) (id : CellId) (formula : String) :
    (setFormula id formula).onSheet s = (s.setFormula id formula).map fun e => ((), e.sheet) := by
  rw [onSheet, run_setFormula]
  cases s.setFormula id formula <;> rfl

end Procedure

namespace Session

variable (s : Session)

theorem perform_createCell_eq (name formula : Option String) :
    s.perform (.createCell name formula) =
      s.attemptCreate (s.sheet.createCell name formula) := by
  simp only [perform, Operation.procedure, EStateM.run_bind, Procedure.run_createCell]
  cases s.sheet.createCell name formula <;> rfl

theorem perform_createTable_eq (name : Option String) (rows cols : Nat) :
    s.perform (.createTable name rows cols) =
      s.attemptCreate (s.sheet.createTable name rows cols) := by
  simp only [perform, Operation.procedure, EStateM.run_bind, Procedure.run_createTable]
  cases s.sheet.createTable name rows cols <;> rfl

theorem perform_deleteCell_eq (id : CellId) : s.perform (.deleteCell id) = s.delete id := by
  simp only [perform, Operation.procedure, EStateM.run_bind, Procedure.run_deleteCell, delete]
  cases s.sheet.deleteCell id <;> rfl

theorem perform_setFormula_eq (id : CellId) (formula : String) :
    s.perform (.setFormula id formula) = s.attempt (s.sheet.setFormula id formula) := by
  simp only [perform, Operation.procedure, EStateM.run_bind, Procedure.run_setFormula]
  cases s.sheet.setFormula id formula <;> rfl

theorem perform_rename_eq (id : CellId) (name : String) : s.perform (.rename id name) =
    match s.sheet.rename id name with
    | some e => s.accept (.flag true) e
    | none => s.keep (.flag false) := by
  simp only [perform, Operation.procedure, EStateM.run_bind, Procedure.run_rename]
  cases s.sheet.rename id name <;> rfl

theorem perform_setTableValue_eq (id : CellId) (row col : Nat) (x : Float) :
    s.perform (.setTableValue id row col x) =
      s.attempt (s.sheet.setTableValue id row col x) := by
  simp only [perform, Operation.procedure, EStateM.run_bind, Procedure.run_setTableValue]
  cases s.sheet.setTableValue id row col x <;> rfl

theorem perform_resizeTable_eq (id : CellId) (rows cols : Nat) :
    s.perform (.resizeTable id rows cols) = s.attempt (s.sheet.resizeTable id rows cols) := by
  simp only [perform, Operation.procedure, EStateM.run_bind, Procedure.run_resizeTable]
  cases s.sheet.resizeTable id rows cols <;> rfl

theorem perform_subscribe_eq (id : CellId) : s.perform (.subscribe id) = s.subscribe id := by
  simp only [perform, Operation.procedure, Procedure.subscribe, subscribe, EStateM.run_bind,
    Procedure.run_sheet, Procedure.run_ofExcept]
  cases s.sheet.cell id <;> rfl

theorem perform_unsubscribe_eq (id : CellId) (handle : Handle) :
    s.perform (.unsubscribe id handle) = s.unsubscribe id handle := by
  simp only [perform, Operation.procedure, EStateM.run_bind, Procedure.run_unsubscribe,
    unsubscribe]
  cases s.subscriptions.has id handle <;> rfl

end Session

end LiveSheet
