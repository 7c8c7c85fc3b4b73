import LiveSheet.Proofs.Sheet.Retracing
import LiveSheet.Storage.Document

namespace LiveSheet

open Relation

namespace Document

/-- The sheet to which the cells of some records are added one after the other. -/
def addCells : Sheet → List Record → Except SheetError Sheet
  | s, [] => .ok s
  | s, record :: rest =>
    match s.createCell (some record.name) (some record.formula) with
    | .ok (_, e) => addCells e.sheet rest
    | .error e => .error e

/-- As nobody watches, a sheet is all that one record leaves to the next. -/
theorem onSheet_replay (s : Sheet) (records : List Record) :
    (replay records).onSheet s = (addCells s records).map fun t => ((), t) := by
  induction records generalizing s with
  | nil => rfl
  | cons record rest ih =>
    simp only [Procedure.onSheet, replay, EStateM.run_bind, Procedure.run_createCell, addCells]
    cases s.createCell (some record.name) (some record.formula) with
    | error e => rfl
    | ok made =>
      simp only [Course.outcome, Course.accept, Subscriptions.deliver_none, List.append_nil]
      exact ih made.2.sheet

theorem restoreWith_eq (settings : Settings) (d : Document) : d.restoreWith settings =
    if d.evaluator = settings.evaluator then
      (addCells (Sheet.new settings) d.cells).mapError StorageError.cell
    else .error (.unsupportedEvaluator d.evaluator) := by
  rw [restoreWith, onSheet_replay]
  cases addCells (Sheet.new settings) d.cells <;> rfl

end Document

namespace Sheet

variable {s t u : Sheet} {x y : CellId} {b c d : Cell} {name : String}

theorem Indexed.exists_idOf? (h : s.Indexed) :
    (∃ y, s.idOf? name = some y) ↔ name ∈ s.cells.map Cell.name := by
  rw [List.mem_map]
  constructor
  · rintro ⟨y, hy⟩
    obtain ⟨c, hc, hn⟩ := (h.names name y).mp hy
    exact ⟨c, (mem_of_cell? hc).1, hn⟩
  · rintro ⟨c, hc, rfl⟩
    exact ⟨c.id, h.idOf?_name (cell?_of_mem h.nodup hc)⟩

theorem Indexed.name_eq (h : s.Indexed) {name' : String} (hn : s.idOf? name = some y)
    (hn' : s.idOf? name' = some y) : name = name' := by
  obtain ⟨c, hc, rfl⟩ := (h.names name y).mp hn
  obtain ⟨c', hc', rfl⟩ := (h.names name' y).mp hn'
  rw [Option.some.inj (hc.symm.trans hc')]

theorem cellNames_eq_of_roster (h : u.roster = t.roster) :
    u.cells.map Cell.name = t.cells.map Cell.name := by
  have hcells : (u.cells.map Cell.label).map Cell.name = (t.cells.map Cell.label).map Cell.name :=
    congrArg (fun s => (Sheet.cells s).map Cell.name) h
  rw [List.map_map, List.map_map] at hcells
  exact hcells

/-- The sheet has the first cells of another one, made anew. -/
structure Loading (s : Sheet) (made : List Cell) (t : Sheet) : Prop where
  kept : t.Kept .default
  names : t.cells.map Cell.name = made.map Cell.name
  tracks : ∀ x, s.TracksAt t False x

section Fixed

variable (hs : s.Flawless)
include hs

/-- A cell that is made anew has the default value at first. -/
theorem createCell_tracks (indexed : t.Indexed) (tracks : ∀ x, s.TracksAt t False x)
    (hc : s.cell? c.id = some c) (free : t.idOf? c.name = none) (x : CellId) :
    s.TracksAt (((t.insertCell c.name c.formula (.formula none)).unchanged.applyFormula
      t.nextId).rebind c.name).sheet False x := by
  let e : Edit := (t.insertCell c.name c.formula (.formula none)).unchanged
  have hindexed : e.sheet.Indexed := indexed.insertCell free c.formula (.formula none)
  have hmore : ∀ name y, t.resolver name = some y → e.sheet.resolver name = some y :=
    fun name y hy => idOf?_insertCell_of_some free c.formula (.formula none) hy
  apply Edit.rebind_tracks hs (hindexed.of_roster (Edit.applyFormula_roster e t.nextId).symm)
  apply Edit.applyFormula_tracks hs hindexed
  · intro x hx d hd
    change (t.insertCell c.name c.formula (.formula none)).cell? x = some d at hd
    rw [indexed.cell?_insertCell_other c.name c.formula (.formula none) hx] at hd
    obtain ⟨c', hc', h⟩ := tracks x d hd
    exact ⟨c', hc', h.extend hmore⟩
  · refine .of_cell? (indexed.cell?_insertCell_self c.name c.formula (.formula none)) hc ?_
    exact ⟨rfl, rfl, rfl, fun tree ht => (by cases ht), fun y hy => absurd hy IdSet.not_mem_empty,
      fun y hy => absurd hy IdSet.not_mem_empty, fun hk => (by cases hk), fun _ => .inl rfl,
      fun hp => absurd trivial hp⟩

theorem Loading.step {made rest : List Cell} (h : Loading s made t)
    (hcells : s.cells = made ++ c :: rest) : ∃ id e,
      t.createCell (some c.name) (some c.formula) = .ok (id, e) ∧
        Loading s (made ++ [c]) e.sheet := by
  have hindexed := hs.kept.sound.indexed
  have hmem : c ∈ s.cells := by simp [hcells]
  have hc := cell?_of_mem hindexed.nodup hmem
  have hvalid : isValidName c.name = true :=
    hs.kept.alert.named (hs.kept.settings_eq ▸ Settings.default_proper) c.id c hc
  have hfree : t.idOf? c.name = none := by
    refine Option.eq_none_iff_forall_ne_some.mpr fun y hy => ?_
    have hmade := h.kept.sound.indexed.exists_idOf?.mp ⟨y, hy⟩
    rw [h.names] at hmade
    obtain ⟨d, hd, hname⟩ := List.mem_map.mp hmade
    have hdmem : d ∈ s.cells := by simp [hcells, hd]
    obtain rfl := hindexed.eq_of_name (cell?_of_mem hindexed.nodup hdmem) hc hname
    have hnodup : s.cells.Nodup := .of_map Cell.id hindexed.nodup
    rw [hcells] at hnodup
    exact (List.nodup_append.mp hnodup).2.2 d hd d (by simp) rfl
  have hcreate := createCell_of_free hvalid hfree c.formula
  refine ⟨_, _, hcreate, (Makes.createCell hcreate).kept h.kept, ?_,
    createCell_tracks hs h.kept.sound.indexed h.tracks hc hfree⟩
  rw [cellNames_eq_of_roster ((Edit.rebind_roster _ c.name).trans (Edit.applyFormula_roster _ _))]
  simp [unchanged, insertCell, Cell.new, h.names]

/-- The cells of a sheet can be made anew in their order. -/
theorem addCells_loading {made rest : List Cell} (h : Loading s made t)
    (hcells : s.cells = made ++ rest) :
    ∃ u, Document.addCells t (rest.map fun c => ⟨c.name, c.formula⟩) = .ok u ∧
      Loading s s.cells u := by
  induction rest generalizing made t with
  | nil => exact ⟨t, rfl, by rwa [hcells, List.append_nil]⟩
  | cons c rest ih =>
    obtain ⟨id, e, hcreate, hnext⟩ := h.step hs hcells
    obtain ⟨u, hu, hloading⟩ := ih hnext (by rw [hcells, List.append_assoc, List.singleton_append])
    refine ⟨u, ?_, hloading⟩
    rw [List.map_cons, Document.addCells, hcreate]
    exact hu

theorem restore_loading :
    ∃ u, (Document.ofSheet s).restore = .ok u ∧ Loading s s.cells u := by
  have hstart : Loading s [] (Sheet.new .default) :=
    ⟨.new .default, rfl, fun x d hd => (by cases hd)⟩
  obtain ⟨u, hu, hloading⟩ := addCells_loading hs hstart rfl
  have hall : s.cells.filter (fun c => !c.isTable) = s.cells :=
    List.filter_eq_self.mpr fun c hc => by simp [hs.formulas c hc]
  refine ⟨u, ?_, hloading⟩
  rw [Document.restore, Document.restoreWith_eq, Document.ofSheet, hs.kept.settings_eq, if_pos rfl,
    hall, hu]
  rfl

end Fixed

end Sheet

end LiveSheet
