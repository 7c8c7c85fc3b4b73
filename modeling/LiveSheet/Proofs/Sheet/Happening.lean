import LiveSheet.Proofs.Sheet.Enrolment
import LiveSheet.Proofs.Sheet.Watching

namespace LiveSheet

/-- The edit that an operation makes of the sheet, whoever watches it. -/
def Sheet.edited (s : Sheet) : Operation → Edit
  | .createCell name formula =>
    ((s.createCell name formula).toOption.map Prod.snd).getD s.unchanged
  | .createTable name rows cols =>
    ((s.createTable name rows cols).toOption.map Prod.snd).getD s.unchanged
  | .deleteCell id => (s.deleteCell id).toOption.getD s.unchanged
  | .setFormula id formula => (s.setFormula id formula).toOption.getD s.unchanged
  | .rename id name => (s.rename id name).getD s.unchanged
  | .setTableValue id row col x => (s.setTableValue id row col x).toOption.getD s.unchanged
  | .resizeTable id rows cols => (s.resizeTable id rows cols).toOption.getD s.unchanged
  | .subscribe _ | .unsubscribe _ _ => s.unchanged

/-- What an operation does to the sheet and what is told of it does not depend on who watches. -/
theorem Session.perform_edited (s : Session) (op : Operation) :
    (s.perform op).session.sheet = (s.sheet.edited op).sheet ∧
      (s.perform op).delivered = s.subscriptions.deliver (s.sheet.edited op).changes ∧
      (s.sheet.edited op = s.sheet.unchanged ∨
        s.sheet.Accepts op (s.perform op).reply (s.sheet.edited op)) := by
  cases op with
  | createCell name formula =>
    simp only [perform_createCell_eq, Sheet.edited]
    cases h : s.sheet.createCell name formula with
    | error e => exact ⟨rfl, rfl, .inl rfl⟩
    | ok made => exact ⟨rfl, rfl, .inr (.createCell h)⟩
  | createTable name rows cols =>
    simp only [perform_createTable_eq, Sheet.edited]
    cases h : s.sheet.createTable name rows cols with
    | error e => exact ⟨rfl, rfl, .inl rfl⟩
    | ok made => exact ⟨rfl, rfl, .inr (.createTable h)⟩
  | deleteCell id =>
    simp only [perform_deleteCell_eq, delete, Sheet.edited]
    cases h : s.sheet.deleteCell id with
    | error e => exact ⟨rfl, rfl, .inl rfl⟩
    | ok e => exact ⟨rfl, rfl, .inr (.deleteCell h)⟩
  | setFormula id formula =>
    simp only [perform_setFormula_eq, Sheet.edited]
    cases h : s.sheet.setFormula id formula with
    | error e => exact ⟨rfl, rfl, .inl rfl⟩
    | ok e => exact ⟨rfl, rfl, .inr (.setFormula h)⟩
  | rename id name =>
    simp only [perform_rename_eq, Sheet.edited]
    cases h : s.sheet.rename id name with
    | none => exact ⟨rfl, rfl, .inl rfl⟩
    | some e => exact ⟨rfl, rfl, .inr (.rename h)⟩
  | setTableValue id row col x =>
    simp only [perform_setTableValue_eq, Sheet.edited]
    cases h : s.sheet.setTableValue id row col x with
    | error e => exact ⟨rfl, rfl, .inl rfl⟩
    | ok e => exact ⟨rfl, rfl, .inr (.setTableValue h)⟩
  | resizeTable id rows cols =>
    simp only [perform_resizeTable_eq, Sheet.edited]
    cases h : s.sheet.resizeTable id rows cols with
    | error e => exact ⟨rfl, rfl, .inl rfl⟩
    | ok e => exact ⟨rfl, rfl, .inr (.resizeTable h)⟩
  | subscribe id =>
    simp only [perform_subscribe_eq, subscribe, Sheet.edited]
    cases s.sheet.cell id <;> exact ⟨rfl, rfl, .inl trivial⟩
  | unsubscribe id handle =>
    simp only [perform_unsubscribe_eq, unsubscribe, Sheet.edited]
    split <;> exact ⟨rfl, rfl, .inl trivial⟩

/-- What happens to a cell in the course of some operations, whoever watches it. -/
def Sheet.eventsOf (s : Sheet) (id : CellId) : List Operation → List CellEvent
  | [] => []
  | op :: rest => (s.edited op).eventsOf id ++ (s.edited op).sheet.eventsOf id rest

namespace Edit

variable {e e' : Edit} {x : CellId}

theorem eventsOf_eq_nil_iff : e.eventsOf x = [] ↔ ∀ change ∈ e.changes, change.cell ≠ x := by
  simp [eventsOf, List.filterMap_eq_nil_iff]

theorem Touches.changes (h : Touches e e') : e.changes <+: e'.changes := by
  cases h with
  | quiet => exact List.prefix_refl _
  | _ => exact List.prefix_append _ _

/-- What was told stays told. -/
theorem Becomes.changes (h : Becomes e e') : e.changes <+: e'.changes := by
  induction h with
  | refl => exact List.prefix_refl _
  | tail _ touches ih => exact ih.trans touches.changes

/-- Nothing is told of a cell that is not there. -/
theorem Touches.silent (h : Touches e e') (absent : e.sheet.cell? x = none) :
    e'.eventsOf x = e.eventsOf x := by
  have hother : ∀ {id c}, e.sheet.cell? id = some c → id ≠ x := by
    rintro id c hc rfl
    rw [absent] at hc
    cases hc
  cases h with
  | quiet => rfl
  | value hc | error hc | formula hc =>
    rw [eventsOf_announce, if_neg (hother hc), List.append_nil]
    rfl

theorem Becomes.silent (h : Becomes e e') (absent : x ∉ e.sheet.ids) :
    e'.eventsOf x = e.eventsOf x := by
  induction h with
  | refl => rfl
  | tail before touches ih =>
    rw [← Sheet.ids_eq_of_roster (Becomes.roster_eq before)] at absent
    exact (touches.silent (Sheet.not_mem_ids_iff.mp absent)).trans ih

end Edit

namespace Sheet

open Edit

variable {s : Sheet} {id x : CellId} {gone : Option CellId} {e : Edit}

theorem Opens.silent (h : s.Opens gone e) (absent : x ∉ s.ids) : e.eventsOf x = [] := by
  have hother : ∀ {id c}, s.cell? id = some c → id ≠ x := by
    rintro id c hc rfl
    exact absent (mem_ids_iff.mpr ⟨c, hc⟩)
  cases h with
  | same | insert => rfl
  | remove hc | relabel hc | regrid hc =>
    rw [eventsOf_announce, if_neg (hother hc)]
    rfl

/-- Nothing is told of an identity that is that of no cell and does not become one. -/
theorem Runs.silent (h : s.Runs gone e) (absent : x ∉ s.ids) (unborn : x ∉ e.sheet.ids) :
    e.eventsOf x = [] := by
  obtain ⟨start, hopens, hbecomes⟩ := h
  have hstart : x ∉ start.sheet.ids := ids_eq_of_roster hbecomes.roster_eq ▸ unborn
  exact (hbecomes.silent hstart).trans (hopens.silent absent)

theorem Runs.present (h : s.Runs gone e) (indexed : s.Indexed) (stays : gone ≠ some x)
    (hx : x ∈ s.ids) : x ∈ e.sheet.ids := by
  obtain ⟨start, hopens, hbecomes⟩ := h
  obtain ⟨c, hc⟩ := mem_ids_iff.mp hx
  obtain ⟨d, -, hd, -⟩ := hopens.reports indexed stays c hc
  rw [ids_eq_of_roster hbecomes.roster_eq]
  exact mem_ids_iff.mpr ⟨d, hd⟩

theorem deleteCell_of_mem (hid : id ∈ s.ids) : ∃ e, s.deleteCell id = .ok e := by
  obtain ⟨c, hc⟩ := mem_ids_iff.mp hid
  rw [deleteCell, cell, hc]
  exact ⟨_, rfl⟩

theorem deleteCell_becomes (h : s.deleteCell id = .ok e) :
    ∃ gone, id ∉ (s.removeCell gone).ids ∧
      Becomes ((s.removeCell gone).unchanged.announce id .deleteRequested) e := by
  obtain ⟨gone, rfl, -, rfl⟩ := deleteCell_eq_ok h
  refine ⟨gone, ?_, becomes_refreshAll _ _⟩
  rw [not_mem_ids_iff, cell?_removeCell, if_pos rfl]

theorem deleteCell_gone (h : s.deleteCell id = .ok e) : id ∉ e.sheet.ids := by
  obtain ⟨gone, habsent, hbecomes⟩ := deleteCell_becomes h
  exact ids_eq_of_roster hbecomes.roster_eq ▸ habsent

/-- Of a cell that is deleted nothing is told but this, and that first. -/
theorem deleteCell_changes (h : s.deleteCell id = .ok e) :
    ∃ rest, e.changes = ⟨id, .deleteRequested⟩ :: rest ∧ ∀ change ∈ rest, change.cell ≠ id := by
  obtain ⟨gone, habsent, hbecomes⟩ := deleteCell_becomes h
  obtain ⟨rest, hrest⟩ := hbecomes.changes
  replace hrest : e.changes = ⟨id, .deleteRequested⟩ :: rest := hrest.symm
  have hfirst : ((s.removeCell gone).unchanged.announce id .deleteRequested).eventsOf id =
      [.deleteRequested] := (eventsOf_announce _ _ _ _).trans (if_pos rfl)
  have hsilent := hbecomes.silent habsent
  rw [hfirst, Edit.eventsOf, hrest] at hsilent
  refine ⟨rest, hrest, (eventsOf_eq_nil_iff (e := ⟨e.sheet, rest⟩)).mp ?_⟩
  simpa [Edit.eventsOf] using hsilent

theorem edited_accepts (s : Sheet) (op : Operation) :
    s.edited op = s.unchanged ∨ ∃ reply, s.Accepts op reply (s.edited op) :=
  (Session.perform_edited ⟨s, .none⟩ op).2.2.imp_right fun h => ⟨_, h⟩

theorem edited_runs (indexed : s.Indexed) (op : Operation) :
    s.Runs op.removes (s.edited op) := by
  rcases s.edited_accepts op with h | ⟨reply, h⟩
  · exact h ▸ .refl s op.removes
  · exact h.runs indexed

theorem edited_sound (sound : s.Sound) (op : Operation) : (s.edited op).sheet.Sound := by
  rcases s.edited_accepts op with h | ⟨reply, h⟩
  · exact h ▸ sound
  · exact h.makes.sound sound

theorem edited_numbers (s : Sheet) (op : Operation) :
    ∃ given, s.Numbers given (s.edited op).sheet := by
  rcases s.edited_accepts op with h | ⟨reply, h⟩
  · exact ⟨[], h ▸ .refl s⟩
  · exact ⟨reply.given, h.enrols.numbers⟩

/-- Nothing ever happens to a cell that is gone. -/
theorem eventsOf_of_gone (sound : s.Sound) (past : x.number ≤ s.lastId) (gone : x ∉ s.ids)
    (operations : List Operation) : s.eventsOf x operations = [] := by
  induction operations generalizing s with
  | nil => rfl
  | cons op rest ih =>
    obtain ⟨given, hnumbers⟩ := s.edited_numbers op
    have hgone : x ∉ (s.edited op).sheet.ids := (hnumbers.not_mem past gone).1
    have hpast : x.number ≤ (s.edited op).sheet.lastId :=
      past.trans (hnumbers.lastId ▸ Nat.le_add_right _ _)
    rw [eventsOf, (edited_runs sound.indexed op).silent gone hgone,
      ih (edited_sound sound op) hpast hgone, List.append_nil]

end Sheet

theorem Session.eventsOf_append (s : Session) (id : CellId) (during rest : List Operation) :
    s.sheet.eventsOf id (during ++ rest) =
      s.sheet.eventsOf id during ++ (s.run during).sheet.eventsOf id rest := by
  induction during generalizing s with
  | nil => rfl
  | cons op during ih =>
    rw [List.cons_append, Sheet.eventsOf, Sheet.eventsOf, ← (s.perform_edited op).1, ih,
      List.append_assoc]
    rfl

end LiveSheet
