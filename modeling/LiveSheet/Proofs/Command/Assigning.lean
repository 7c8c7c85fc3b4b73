import LiveSheet.Command.Run
import LiveSheet.Proofs.Sheet.Breakage
import LiveSheet.Proofs.Storage.RoundTrip

namespace LiveSheet

/-- The formula of the only record with a name is replaced where it stands, or a record is added to
those that have other names. -/
inductive Document.Assigns (name formula : String) : Document → Document → Prop
  | inPlace {evaluator old : String} {front rest : List Record} :
    Assigns name formula ⟨evaluator, front ++ ⟨name, old⟩ :: rest⟩
      ⟨evaluator, front ++ ⟨name, formula⟩ :: rest⟩
  | append {evaluator : String} {records : List Record} (fresh : name ∉ records.map Record.name) :
    Assigns name formula ⟨evaluator, records⟩ ⟨evaluator, records ++ [⟨name, formula⟩]⟩

def Document.assigned (d : Document) (name formula : String) : Document where
  evaluator := d.evaluator
  cells :=
    if name ∈ d.cells.map Record.name then
      d.cells.map fun r => if r.name = name then ⟨name, formula⟩ else r
    else d.cells ++ [⟨name, formula⟩]

/-- Where names are distinct, it is determined what becomes of a document. -/
theorem Document.Assigns.eq_assigned {name formula : String} {d d' : Document}
    (h : d.Assigns name formula d') (distinct : (d.cells.map Record.name).Nodup) :
    d' = d.assigned name formula := by
  cases h with
  | append fresh => rw [assigned, if_neg fresh]
  | @inPlace evaluator old front rest =>
    have hothers : ∀ records : List Record, name ∉ records.map Record.name →
        records.map (fun r => if r.name = name then ⟨name, formula⟩ else r) = records := by
      intro records hnot
      conv_rhs => rw [← List.map_id records]
      refine List.map_congr_left fun r hr => if_neg ?_
      rintro rfl
      exact hnot (List.mem_map_of_mem hr)
    simp only [List.map_append, List.map_cons, List.nodup_append, List.nodup_cons] at distinct
    obtain ⟨-, ⟨hrest, -⟩, hapart⟩ := distinct
    have hfront : name ∉ front.map Record.name := fun hm => hapart name hm name (by simp) rfl
    rw [assigned, if_pos (by simp), List.map_append, List.map_cons, if_pos rfl, hothers rest hrest,
      hothers front hfront]

/-- There are only formula cells. -/
def Sheet.Tableless (s : Sheet) : Prop :=
  ∀ x c, s.cell? x = some c → c.isTable = false

namespace Edit

open Sheet

variable {e : Edit}

theorem applyFormula_tableless (h : e.sheet.Tableless) (id : CellId) :
    (e.applyFormula id).sheet.Tableless := by
  intro x d hd
  by_cases hx : x = id
  · subst x
    rcases applyFormula_cases e id with ⟨c, hc, formula⟩ | ⟨hstay, -⟩
    · obtain ⟨d', hd', houtcome⟩ := applyFormula_outcome hc formula
      obtain rfl := Option.some.inj (hd'.symm.trans hd)
      exact houtcome.isTable
    · rw [hstay] at hd
      exact h id d hd
  · obtain ⟨c, hc, hstance⟩ := (applyFormula_others e hx).cell? hd
    rw [Cell.isTable_eq_of_stance hstance]
    exact h x c hc

theorem rebind_tableless (h : e.sheet.Tableless) (name : String) :
    (e.rebind name).sheet.Tableless :=
  rebind_invariant Tableless (fun _ id h => applyFormula_tableless h id) h name

end Edit

namespace Sheet

variable {s t : Sheet} {id : CellId} {c : Cell} {e : Edit} {r : Record} {name formula : String}
  {d : Document}

theorem ofSheet_of_tableless (indexed : s.Indexed) (h : s.Tableless) :
    Document.ofSheet s = ⟨s.settings.evaluator, s.cells.map Cell.record⟩ := by
  have hall : s.cells.filter (fun c => !c.isTable) = s.cells := by
    refine List.filter_eq_self.mpr fun c hc => ?_
    rw [h c.id c (cell?_of_mem indexed.nodup hc)]
    rfl
  rw [Document.ofSheet, hall]
  rfl

theorem createCell_tableless (indexed : s.Indexed) (h : s.Tableless)
    (hcreate : s.createCell (some r.name) (some r.formula) = .ok (id, e)) : e.sheet.Tableless := by
  obtain ⟨name, t, hclaim, -, rfl⟩ := createCell_eq_ok hcreate
  have ht := indexed.claim hclaim
  obtain ⟨-, n, rfl⟩ := claimName_ok hclaim
  refine Edit.rebind_tableless (Edit.applyFormula_tableless ?_ _) name
  intro x c hc
  change (insertCell _ _ _ _).cell? x = some c at hc
  rw [ht.cell?_insertCell] at hc
  split at hc
  next =>
    cases hc
    rfl
  next => exact h x c hc

/-- The formula of one cell changes, and all cells keep their places. -/
theorem records_setFormula (indexed : s.Indexed) (hc : s.cell? c.id = some c)
    (h : s.setFormula c.id formula = .ok e) : ∃ front rest,
      s.cells.map Cell.record = front ++ c.record :: rest ∧
        e.sheet.cells.map Cell.record = front ++ ⟨c.name, formula⟩ :: rest := by
  obtain ⟨-, -, -, rfl⟩ := setFormula_eq_ok h
  let u := (s.unchanged.setFormula c.id formula).sheet
  have hroster : u.roster = s.roster := roster_setFormula s c.id formula
  have hu : u.Indexed := indexed.of_roster hroster.symm
  obtain ⟨front, rest, hsplit⟩ := List.append_of_mem (mem_of_cell? hc).1
  have hids : u.ids = front.map Cell.id ++ c.id :: rest.map Cell.id := by
    rw [ids_eq_of_roster hroster, ids, hsplit, List.map_append, List.map_cons]
  have hhere : u.cell? c.id = some { c with formula := formula } := cell?_setFormula hc formula
  have hothers : ∀ cells : List Cell, (∀ b ∈ cells, b ∈ s.cells) → c.id ∉ cells.map Cell.id →
      (cells.map Cell.id).filterMap (fun x => (u.cell? x).map Cell.record) =
        cells.map Cell.record := by
    intro cells hsub hnot
    rw [List.filterMap_map, ← List.filterMap_eq_map]
    refine List.filterMap_congr fun b hb => ?_
    have hne : b.id ≠ c.id := fun he => hnot (he ▸ List.mem_map_of_mem hb)
    have hkeep : u.cell? b.id = s.cell? b.id := Edit.setFormula_others s.unchanged formula hne
    simp [hkeep, cell?_of_mem indexed.nodup (hsub b hb)]
  have hnodup := hids ▸ hu.nodup
  obtain ⟨-, hrest, hapart⟩ := List.nodup_append.mp hnodup
  have hfront : c.id ∉ front.map Cell.id := fun hm => hapart _ hm _ (by simp) rfl
  refine ⟨front.map Cell.record, rest.map Cell.record, by simp [hsplit], ?_⟩
  calc ((s.unchanged.setFormula c.id formula).applyFormula c.id).sheet.cells.map Cell.record
      = u.cells.map Cell.record :=
        records_eq_of_roster hu (Edit.applyFormula_roster _ c.id)
          (Edit.applyFormula_formula _ c.id)
    _ = u.ids.filterMap fun x => (u.cell? x).map Cell.record := cells_map_eq hu.nodup _
    _ = front.map Cell.record ++ ⟨c.name, formula⟩ :: rest.map Cell.record := by
        rw [hids, List.filterMap_append, List.filterMap_cons, hhere,
          hothers front (fun b hb => hsplit ▸ List.mem_append_left _ hb) hfront,
          hothers rest (fun b hb => hsplit ▸ List.mem_append_right _ (List.mem_cons_of_mem _ hb))
            (List.nodup_cons.mp hrest).1]
        rfl

theorem setFormula_tableless (h : s.Tableless) (hset : s.setFormula id formula = .ok e) :
    e.sheet.Tableless := by
  obtain ⟨c, hc, htable, rfl⟩ := setFormula_eq_ok hset
  refine Edit.applyFormula_tableless (fun x d hd => ?_) id
  by_cases hx : x = id
  · subst x
    obtain rfl := Option.some.inj ((cell?_setFormula hc formula).symm.trans hd)
    exact htable
  · exact h x d ((Edit.setFormula_others s.unchanged formula hx).symm.trans hd)

/-- A sheet of formula cells as operations make them, with the default settings. -/
structure Storable (s : Sheet) : Prop where
  kept : s.Kept .default
  tableless : s.Tableless

namespace Storable

variable (h : s.Storable)
include h

theorem ofSheet_eq :
    Document.ofSheet s = ⟨Settings.default.evaluator, s.cells.map Cell.record⟩ := by
  rw [ofSheet_of_tableless h.kept.sound.indexed h.tableless, h.kept.settings_eq]

theorem restores : ∃ t, (Document.ofSheet s).restore = .ok t := by
  have htag : (Document.ofSheet s).evaluator = Settings.default.evaluator :=
    congrArg Document.evaluator h.ofSheet_eq
  obtain ⟨t, ht, -⟩ :=
    Document.restoreWith_of_restorable htag (h.kept.restorable Settings.default_proper)
  exact ⟨t, ht⟩

theorem assign_known (hc : s.cell? c.id = some c) (formula : String) :
    ∃ d t, s.assign c.name formula = .ok (c.id, t) ∧ t.cell c.id = .ok d ∧ t.Storable ∧
      (Document.ofSheet s).Assigns c.name formula (Document.ofSheet t) := by
  have hindexed := h.kept.sound.indexed
  have hset : s.setFormula c.id formula =
      .ok ((s.unchanged.setFormula c.id formula).applyFormula c.id) := by
    simp [setFormula, cell, hc, h.tableless c.id c hc]
  have hassign := hindexed.idOf?_name hc
  generalize (s.unchanged.setFormula c.id formula).applyFormula c.id = e at hset
  have ht : e.sheet.Storable :=
    ⟨(Makes.setFormula hset).kept h.kept, setFormula_tableless h.tableless hset⟩
  obtain ⟨d, hd⟩ : ∃ d, e.sheet.cell? c.id = some d := by
    rw [← mem_ids_iff, ids_eq_of_roster (setFormula_roster hset)]
    exact mem_ids_iff.mpr ⟨c, hc⟩
  refine ⟨d, e.sheet, ?_, ?_, ht, ?_⟩
  · simp [assign, hassign, Procedure.onSheet_setFormula, hset, Except.map]
  · rw [cell, hd]
  · obtain ⟨front, rest, hbefore, hafter⟩ := records_setFormula hindexed hc hset
    rw [h.ofSheet_eq, ht.ofSheet_eq, hbefore, hafter]
    exact .inPlace

theorem assign_new (free : s.idOf? name = none) (valid : isValidName name = true)
    (formula : String) :
    ∃ id d t, s.assign name formula = .ok (id, t) ∧ t.cell id = .ok d ∧ t.Storable ∧
      (Document.ofSheet s).Assigns name formula (Document.ofSheet t) := by
  have hindexed := h.kept.sound.indexed
  have hcreate := createCell_of_free valid free formula
  have hroster := (Edit.rebind_roster _ name).trans (Edit.applyFormula_roster
    (s.insertCell name formula (.formula none)).unchanged s.nextId)
  generalize ((s.insertCell name formula (.formula none)).unchanged.applyFormula s.nextId).rebind
    name = e at hcreate hroster
  obtain ⟨-, hrecords⟩ := records_createCell (r := ⟨name, formula⟩) hindexed hcreate
  have ht : e.sheet.Storable := ⟨(Makes.createCell hcreate).kept h.kept,
    createCell_tableless (r := ⟨name, formula⟩) hindexed h.tableless hcreate⟩
  obtain ⟨d, hd⟩ : ∃ d, e.sheet.cell? s.nextId = some d := by
    rw [← mem_ids_iff, ids_eq_of_roster hroster]
    change s.nextId ∈ (s.insertCell name formula (.formula none)).ids
    simp [ids_insertCell]
  refine ⟨s.nextId, d, e.sheet, ?_, ?_, ht, ?_⟩
  · simp [assign, free, Procedure.onSheet_createCell, hcreate, Except.map]
  · rw [cell, hd]
  · have hfresh : name ∉ (s.cells.map Cell.record).map Record.name := by
      rw [List.map_map]
      intro hm
      obtain ⟨y, hy⟩ := hindexed.exists_idOf?.mpr hm
      rw [free] at hy
      cases hy
    rw [h.ofSheet_eq, ht.ofSheet_eq, hrecords]
    exact .append hfresh

/-- A formula is assigned to every valid name, and to no other one. -/
theorem assign_cases (name formula : String) :
    (isValidName name = true ∧ ∃ id d t, s.assign name formula = .ok (id, t) ∧
      t.cell id = .ok d ∧ t.Storable ∧
      (Document.ofSheet s).Assigns name formula (Document.ofSheet t)) ∨
      (isValidName name = false ∧ ∃ failure, s.assign name formula = .error failure) := by
  cases hid : s.idOf? name with
  | some id =>
    obtain ⟨c, hc, rfl⟩ := (h.kept.sound.indexed.names name id).mp hid
    obtain rfl := cell?_id hc
    have hvalid := h.kept.alert.named (h.kept.settings_eq ▸ Settings.default_proper) c.id c hc
    exact .inl ⟨hvalid, c.id, h.assign_known hc formula⟩
  | none =>
    cases hvalid : isValidName name with
    | true => exact .inl ⟨rfl, h.assign_new hid hvalid formula⟩
    | false =>
      have hcreate : s.createCell (some name) (some formula) = .error (.invalidName name) := by
        simp [createCell, claimName, hvalid]
      exact .inr ⟨rfl, _, by rw [assign, hid, Procedure.onSheet_createCell, hcreate]; rfl⟩

end Storable

end Sheet

theorem Document.restore_eq_ok {d : Document} {s : Sheet} (h : d.restore = .ok s) :
    s.Storable ∧ Document.ofSheet s = d := by
  unfold restore at h
  by_cases tag : d.evaluator = Settings.default.evaluator
  · rcases restorable_or_refused d.cells with hr | ⟨front, r, rest, cause, hcells, hfront, hrefused⟩
    · obtain ⟨t, ht, hmade⟩ := restoreWith_made tag hr.distinct hr.valid
      obtain ⟨u, hu, hdocument, -⟩ := restoreWith_of_restorable tag hr
      obtain rfl := Except.ok.inj (ht.symm.trans h)
      obtain rfl := Except.ok.inj (hu.symm.trans h)
      exact ⟨⟨hmade.kept, fun x c hc => (hmade.pristine x c hc).isTable⟩, hdocument⟩
    · rw [restoreWith_of_refused tag hcells hfront hrefused] at h
      cases h
  · rw [restoreWith_eq, if_neg tag] at h
    cases h

end LiveSheet
