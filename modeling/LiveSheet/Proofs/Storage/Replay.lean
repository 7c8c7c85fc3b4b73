import LiveSheet.Proofs.Storage.Restored

namespace LiveSheet

/-- Cells can be made of some records one after another: all names are valid, and no
two are equal. -/
structure Restorable (records : List Record) : Prop where
  valid : ∀ r ∈ records, isValidName r.name = true
  distinct : (records.map Record.name).Nodup

/-- No cell can be made of a record when there are cells of those before it. -/
inductive Record.Refused (before : List Record) (r : Record) : SheetError → Prop
  | invalid (h : isValidName r.name = false) : r.Refused before (.invalidName r.name)
  | taken (h : r.name ∈ before.map Record.name) : r.Refused before (.nameInUse r.name)

section Records

variable {front rest records : List Record} {r : Record} {cause : SheetError}

theorem restorable_concat_iff : Restorable (front ++ [r]) ↔
    Restorable front ∧ isValidName r.name = true ∧ r.name ∉ front.map Record.name := by
  have hnames : (front ++ [r]).map Record.name = front.map Record.name ++ [r.name] := by simp
  constructor
  · rintro ⟨hvalid, hdistinct⟩
    rw [hnames] at hdistinct
    obtain ⟨hfront, -, hapart⟩ := List.nodup_append.mp hdistinct
    have hfresh : r.name ∉ front.map Record.name := fun hm => hapart _ hm _ (by simp) rfl
    exact ⟨⟨fun q hq => hvalid q (by simp [hq]), hfront⟩, hvalid r (by simp), hfresh⟩
  · rintro ⟨⟨hvalid, hdistinct⟩, hr, hfresh⟩
    refine ⟨fun q hq => ?_, ?_⟩
    · rcases List.mem_append.mp hq with hq | hq
      · exact hvalid q hq
      · obtain rfl := List.mem_singleton.mp hq
        exact hr
    · rw [hnames]
      refine List.nodup_append.mpr ⟨hdistinct, by simp, fun a ha b hb he => hfresh ?_⟩
      rw [← List.mem_singleton.mp hb, ← he]
      exact ha

theorem Restorable.upTo (h : Restorable (front ++ r :: rest)) : Restorable (front ++ [r]) := by
  have hsub : (front ++ [r]).Sublist (front ++ r :: rest) :=
    List.Sublist.append_left (List.singleton_sublist.mpr (by simp)) front
  exact ⟨fun q hq => h.valid q (hsub.subset hq), h.distinct.sublist (hsub.map Record.name)⟩

theorem Record.Refused.not_restorable (h : r.Refused front cause) :
    ¬Restorable (front ++ r :: rest) := by
  intro hrestorable
  obtain ⟨-, hvalid, hfresh⟩ := restorable_concat_iff.mp hrestorable.upTo
  cases h with
  | invalid h =>
    rw [h] at hvalid
    cases hvalid
  | taken h => exact hfresh h

/-- If cells cannot be made of all records, there is a first one that is refused. -/
theorem restorable_or_refused (records : List Record) : Restorable records ∨
    ∃ front r rest cause, records = front ++ r :: rest ∧ Restorable front ∧
      r.Refused front cause := by
  induction records using List.reverseRecOn with
  | nil => exact .inl ⟨by simp, by simp⟩
  | append_singleton front r ih =>
    rcases ih with hfront | ⟨front', r', rest, cause, rfl, hfront', hrefused⟩
    · by_cases hvalid : isValidName r.name = true
      · by_cases hm : r.name ∈ front.map Record.name
        · exact .inr ⟨front, r, [], _, rfl, hfront, .taken hm⟩
        · exact .inl (restorable_concat_iff.mpr ⟨hfront, hvalid, hm⟩)
      · have hinvalid : isValidName r.name = false := by simpa using hvalid
        exact .inr ⟨front, r, [], _, rfl, hfront, .invalid hinvalid⟩
    · exact .inr ⟨front', r', rest ++ [r], cause, by simp, hfront', hrefused⟩

end Records

namespace Sheet

variable {s t u : Sheet} {settings : Settings} {id : CellId} {e : Edit} {made rest : List Record}
  {r : Record} {cause : SheetError}

theorem cells_map_eq {α : Type} (distinct : s.ids.Nodup) (f : Cell → α) :
    s.cells.map f = s.ids.filterMap fun x => (s.cell? x).map f := by
  have hcells : ∀ c ∈ s.cells, (s.cell? c.id).map f = some (f c) := by
    intro c hc
    rw [cell?_of_mem distinct hc]
    rfl
  rw [ids, List.filterMap_map, ← List.filterMap_eq_map]
  exact List.filterMap_congr fun c hc => (hcells c hc).symm

/-- Cells that keep their names and formulas keep their records, in their order. -/
theorem records_eq_of_roster (indexed : s.Indexed) (roster : t.roster = s.roster)
    (formulas : ∀ x, (t.cell? x).map Cell.formula = (s.cell? x).map Cell.formula) :
    t.cells.map Cell.record = s.cells.map Cell.record := by
  have hrecord : ∀ x, (t.cell? x).map Cell.record = (s.cell? x).map Cell.record := fun x =>
    record_eq_of_roster roster (formulas x)
  have hindexed : t.Indexed := indexed.of_roster roster.symm
  simp only [cells_map_eq hindexed.nodup, cells_map_eq indexed.nodup, hrecord,
    ids_eq_of_roster roster]

/-- Whatever the formulas of a sheet make of a new name, its cells keep their names and texts, and
the new cell comes last. -/
theorem records_createCell (indexed : t.Indexed)
    (h : t.createCell (some r.name) (some r.formula) = .ok (id, e)) :
    e.sheet.Indexed ∧ e.sheet.cells.map Cell.record = t.cells.map Cell.record ++ [r] := by
  obtain ⟨name, t', hclaim, -, rfl⟩ := createCell_eq_ok h
  obtain ⟨rfl, rfl⟩ : r.name = name ∧ t = t' := by
    unfold claimName at hclaim
    dsimp only at hclaim
    split_ifs at hclaim
    simpa using hclaim
  let inserted := t.insertCell r.name r.formula (.formula none)
  let e := (inserted.unchanged.applyFormula t.nextId).rebind r.name
  have hinserted : inserted.Indexed := indexed.insertCell (claimName_free hclaim) _ _
  have hroster : e.sheet.roster = inserted.roster :=
    (Edit.rebind_roster _ r.name).trans (Edit.applyFormula_roster inserted.unchanged t.nextId)
  refine ⟨hinserted.of_roster hroster.symm, ?_⟩
  calc e.sheet.cells.map Cell.record
      = inserted.cells.map Cell.record := records_eq_of_roster hinserted hroster fun x =>
        (Edit.rebind_formula _ r.name x).trans (Edit.applyFormula_formula _ t.nextId x)
    _ = t.cells.map Cell.record ++ [r] := by
        simp [inserted, insertCell, Cell.new, Cell.record]

theorem records_addCells (indexed : t.Indexed) (h : Document.addCells t rest = .ok u) :
    u.cells.map Cell.record = t.cells.map Cell.record ++ rest := by
  induction rest generalizing t with
  | nil =>
    obtain rfl : t = u := Except.ok.inj h
    simp
  | cons r rest ih =>
    unfold Document.addCells at h
    split at h
    next id e hcreate =>
      obtain ⟨hindexed, hrecords⟩ := records_createCell indexed hcreate
      rw [ih hindexed h, hrecords, List.append_assoc, List.singleton_append]
    next => cases h

theorem addCells_append (t : Sheet) (made rest : List Record) :
    Document.addCells t (made ++ rest) =
      (Document.addCells t made).bind fun u => Document.addCells u rest := by
  induction made generalizing t with
  | nil => rfl
  | cons r made ih =>
    simp only [List.cons_append, Document.addCells]
    cases t.createCell (some r.name) (some r.formula) with
    | error cause => rfl
    | ok made => exact ih made.2.sheet

theorem Made.createCell_of_refused (h : Made settings made t) (restorable : Restorable made)
    (refused : r.Refused made cause) :
    t.createCell (some r.name) (some r.formula) = .error cause := by
  cases refused with
  | invalid hr => simp [createCell, claimName, hr]
  | taken hr =>
    obtain ⟨q, hq, hname⟩ := List.mem_map.mp hr
    have hvalid : isValidName r.name = true := hname ▸ restorable.valid q hq
    have hused : (t.idOf? r.name).isSome = true :=
      Option.isSome_iff_ne_none.mpr (h.resolver_ne_none_iff.mpr hr)
    simp [createCell, claimName, hvalid, hused]

end Sheet

namespace Document

variable {settings : Settings} {d : Document} {front rest : List Record} {r : Record}
  {cause : SheetError}

theorem restoreWith_of_restorable (tag : d.evaluator = settings.evaluator)
    (restorable : Restorable d.cells) : ∃ t, d.restoreWith settings = .ok t ∧
      ofSheet t = d ∧ t.cells.map Cell.record = d.cells := by
  obtain ⟨t, hadd, hmade⟩ := (Sheet.Made.new settings).addCells restorable.valid restorable.distinct
  have hrecords : t.cells.map Cell.record = d.cells :=
    Sheet.records_addCells (Sheet.Made.new settings).kept.sound.indexed hadd
  have hformulas : t.cells.filter (fun c => !c.isTable) = t.cells := by
    apply List.filter_eq_self.mpr
    intro c hc
    have hcell := Sheet.cell?_of_mem hmade.kept.sound.indexed.nodup hc
    simp [(hmade.pristine c.id c hcell).isTable]
  refine ⟨t, by rw [restoreWith_eq, if_pos tag, hadd]; rfl, ?_, hrecords⟩
  have hevaluator : t.settings.evaluator = d.evaluator := by rw [hmade.kept.settings_eq, tag]
  rw [ofSheet, hformulas, hevaluator]
  exact congrArg (Document.mk d.evaluator) hrecords

theorem restoreWith_of_refused (tag : d.evaluator = settings.evaluator)
    (cells : d.cells = front ++ r :: rest) (restorable : Restorable front)
    (refused : r.Refused front cause) : d.restoreWith settings = .error (.cell cause) := by
  obtain ⟨t, hadd, hmade⟩ := (Sheet.Made.new settings).addCells restorable.valid restorable.distinct
  have hrefused := hmade.createCell_of_refused restorable refused
  rw [restoreWith_eq, if_pos tag, cells, Sheet.addCells_append, hadd]
  simp [Except.bind, addCells, hrefused, Except.mapError]

/-- A document is restored exactly if its evaluator is the one of the settings and its records have
distinct valid names; then it is what is stored of the restored sheet, whose cells are made of the
records in their order. Otherwise the wrong evaluator or, if it is right, the first record whose
name is invalid or that of an earlier one is the error, whatever the formulas are. -/
theorem restoreWith_iff (settings : Settings) (d : Document) :
    ((∃ t, d.restoreWith settings = .ok t) ↔
      d.evaluator = settings.evaluator ∧ Restorable d.cells) ∧
      (∀ t, d.restoreWith settings = .ok t →
        ofSheet t = d ∧ t.cells.map Cell.record = d.cells) ∧
      ∀ error, d.restoreWith settings = .error error ↔
        (d.evaluator ≠ settings.evaluator ∧ error = .unsupportedEvaluator d.evaluator) ∨
          (d.evaluator = settings.evaluator ∧ ∃ front r rest cause,
            d.cells = front ++ r :: rest ∧ Restorable front ∧ r.Refused front cause ∧
              error = .cell cause) := by
  by_cases tag : d.evaluator = settings.evaluator
  · rcases restorable_or_refused d.cells with hall | ⟨front, r, rest, cause, hcells, hfront,
      hrefused⟩
    · obtain ⟨t, ht, hdocument, hrecords⟩ := restoreWith_of_restorable tag hall
      have hnone : ∀ front r rest cause, d.cells = front ++ r :: rest → ¬r.Refused front cause :=
        fun front r rest cause hcells hrefused => hrefused.not_restorable (hcells ▸ hall)
      rw [ht]
      refine ⟨⟨fun _ => ⟨tag, hall⟩, fun _ => ⟨t, rfl⟩⟩, ?_, fun error => ⟨nofun, ?_⟩⟩
      · intro u hu
        obtain rfl := Except.ok.inj hu
        exact ⟨hdocument, hrecords⟩
      · rintro (⟨hne, -⟩ | ⟨-, front, r, rest, cause, hcells, -, hrefused, -⟩)
        · exact absurd tag hne
        · exact absurd hrefused (hnone front r rest cause hcells)
    · have herror := restoreWith_of_refused tag hcells hfront hrefused
      have hnot : ¬Restorable d.cells := hcells ▸ hrefused.not_restorable
      refine ⟨⟨fun ⟨t, ht⟩ => ?_, fun h => absurd h.2 hnot⟩, fun t ht => ?_,
        fun error => ⟨fun he => ?_, ?_⟩⟩
      · cases herror.symm.trans ht
      · cases herror.symm.trans ht
      · obtain rfl := Except.error.inj (herror.symm.trans he)
        exact .inr ⟨tag, front, r, rest, cause, hcells, hfront, hrefused, rfl⟩
      · rintro (⟨hne, -⟩ | ⟨-, front', r', rest', cause', hcells', hfront', hrefused', rfl⟩)
        · exact absurd tag hne
        · exact restoreWith_of_refused tag hcells' hfront' hrefused'
  · have herror : d.restoreWith settings = .error (.unsupportedEvaluator d.evaluator) := if_neg tag
    rw [herror]
    refine ⟨⟨fun ⟨t, ht⟩ => (by cases ht), fun h => absurd h.1 tag⟩, nofun, fun error => ⟨?_, ?_⟩⟩
    · intro he
      exact .inl ⟨tag, (Except.error.inj he).symm⟩
    · rintro (⟨-, rfl⟩ | ⟨htag, -⟩)
      · rfl
      · exact absurd htag tag

end Document

end LiveSheet
