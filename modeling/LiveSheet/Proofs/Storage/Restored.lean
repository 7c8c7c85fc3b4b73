import LiveSheet.Proofs.Sheet.Pristine
import LiveSheet.Proofs.Storage.Loading

namespace LiveSheet

open Relation

def Cell.record (c : Cell) : Record :=
  ⟨c.name, c.formula⟩

namespace Document

variable {d : Document} {name : String}

/-- The names of a document stand for its records, which are numbered in their order. -/
def resolver (d : Document) : Resolver :=
  fun name => (d.cells.findIdx? fun r => r.name = name).map fun i => ⟨i + 1⟩

/-- A record of the name `a` has a formula that compiles with all names of the document, and that
refers to the name `b`. -/
def Mentions (d : Document) (a b : String) : Prop :=
  ∃ r ∈ d.cells, r.name = a ∧
    ∃ tree, compile d.resolver r.formula = .ok tree ∧ ∃ ref ∈ tree.refs, ref.name = b

theorem resolver_ne_none_iff : d.resolver name ≠ none ↔ name ∈ d.cells.map Record.name := by
  simp [resolver, List.findIdx?_eq_none_iff]

theorem Mentions.of_perm {d' : Document} {a b : String} (perm : d.cells.Perm d'.cells)
    (h : d'.Mentions a b) : d.Mentions a b := by
  obtain ⟨r, hr, hname, tree, he, ref, href, hrname⟩ := h
  have hunder := compile_under_of_known he fun name hn => by
    rw [resolver_ne_none_iff] at hn ⊢
    exact (perm.map Record.name).mem_iff.mpr hn
  refine ⟨r, perm.mem_iff.mpr hr, hname, _, hunder, ref.under d.resolver, ?_, hrname⟩
  rw [Expr.refs_mapRefs]
  exact List.mem_map_of_mem href

end Document

namespace Sheet

variable {s t : Sheet} {settings : Settings} {x y : CellId} {b c : Cell} {r : Record}
    {name : String}
  {made rest : List Record}

/-- The cells of a sheet are those of some records, each made once. -/
structure Made (settings : Settings) (made : List Record) (t : Sheet) : Prop where
  kept : t.Kept settings
  pristine : t.Pristine
  records : ∀ r, r ∈ made ↔ ∃ x, (t.cell? x).map Cell.record = some r

theorem Made.new (settings : Settings) : Made settings [] (Sheet.new settings) :=
  ⟨.new settings, fun _ _ hc => (by cases hc), fun r => by simp [cell?, Sheet.new]⟩

theorem Made.idOf?_eq_none (h : Made settings made t) (fresh : name ∉ made.map Record.name) :
    t.idOf? name = none := by
  refine Option.eq_none_iff_forall_ne_some.mpr fun y hy => fresh ?_
  obtain ⟨c, hc, rfl⟩ := (h.kept.sound.indexed.names name y).mp hy
  exact List.mem_map_of_mem ((h.records c.record).mpr ⟨y, by rw [hc]; rfl⟩)

/-- A cell that keeps its formula and its name keeps its record. -/
theorem record_eq_of_roster (roster : t.roster = s.roster)
    (formula : (t.cell? x).map Cell.formula = (s.cell? x).map Cell.formula) :
    (t.cell? x).map Cell.record = (s.cell? x).map Cell.record := by
  have hlabel := congrArg (fun s => (s.cell? x).map Cell.name) roster
  simp only [Sheet.roster, cell?_through (f := Cell.label) (fun _ => rfl), Option.map_map] at hlabel
  generalize t.cell? x = d, s.cell? x = c at *
  cases c with
  | none => rw [Option.map_eq_none_iff.mp formula]
  | some c =>
    obtain ⟨d, rfl, hd⟩ := Option.map_eq_some_iff.mp formula
    have hname : d.name = c.name := Option.some.inj hlabel
    simp [Cell.record, hd, hname]

theorem record_of_rebind (e : Edit) (id : CellId) (name : String) (x : CellId) :
    (((e.applyFormula id).rebind name).sheet.cell? x).map Cell.record =
      (e.sheet.cell? x).map Cell.record :=
  record_eq_of_roster
    ((Edit.rebind_roster (e.applyFormula id) name).trans (Edit.applyFormula_roster e id))
    ((Edit.rebind_formula (e.applyFormula id) name x).trans (Edit.applyFormula_formula e id x))

theorem Made.step (h : Made settings made t) (valid : isValidName r.name = true)
    (fresh : r.name ∉ made.map Record.name) : ∃ id e,
      t.createCell (some r.name) (some r.formula) = .ok (id, e) ∧
        Made settings (made ++ [r]) e.sheet := by
  have hindexed := h.kept.sound.indexed
  have hfree := h.idOf?_eq_none fresh
  have hcreate := createCell_of_free valid hfree r.formula
  refine ⟨_, _, hcreate, (Makes.createCell hcreate).kept h.kept,
    h.pristine.createCell h.kept hfree r.formula, fun r' => ?_⟩
  simp only [record_of_rebind, unchanged, List.mem_append, List.mem_singleton, h.records]
  constructor
  · rintro (⟨x, hx⟩ | rfl)
    · refine ⟨x, ?_⟩
      rwa [hindexed.cell?_insertCell_other]
      rintro rfl
      rw [hindexed.cell?_nextId] at hx
      cases hx
    · exact ⟨t.nextId, by rw [hindexed.cell?_insertCell_self]; rfl⟩
  · rintro ⟨x, hx⟩
    rw [hindexed.cell?_insertCell] at hx
    split at hx
    · exact .inr (Option.some.inj hx).symm
    · exact .inl ⟨x, hx⟩

/-- Records of distinct valid names can be made into cells in their order. -/
theorem Made.addCells (h : Made settings made t) (valid : ∀ r ∈ rest, isValidName r.name = true)
    (distinct : ((made ++ rest).map Record.name).Nodup) :
    ∃ u, Document.addCells t rest = .ok u ∧ Made settings (made ++ rest) u := by
  induction rest generalizing made t with
  | nil => exact ⟨t, rfl, by rwa [List.append_nil]⟩
  | cons r rest ih =>
    have hfresh : r.name ∉ made.map Record.name := by
      intro hm
      rw [List.map_append, List.map_cons] at distinct
      exact (List.nodup_append.mp distinct).2.2 _ hm _ (by simp) rfl
    obtain ⟨id, e, hcreate, hnext⟩ := h.step (valid r (by simp)) hfresh
    rw [List.append_cons] at distinct ⊢
    obtain ⟨u, hu, hmade⟩ := ih hnext (fun r' hr => valid r' (by simp [hr])) distinct
    refine ⟨u, ?_, hmade⟩
    rw [Document.addCells, hcreate]
    exact hu

end Sheet

theorem Document.restoreWith_made {settings : Settings} {d : Document}
    (tag : d.evaluator = settings.evaluator) (distinct : (d.cells.map Record.name).Nodup)
    (valid : ∀ r ∈ d.cells, isValidName r.name = true) :
    ∃ t, d.restoreWith settings = .ok t ∧ Sheet.Made settings d.cells t := by
  obtain ⟨t, ht, hmade⟩ := (Sheet.Made.new settings).addCells valid distinct
  refine ⟨t, ?_, hmade⟩
  rw [restoreWith_eq, if_pos tag, ht]
  rfl

namespace Sheet.Made

variable {t : Sheet} {settings : Settings} {made : List Record} {x y : CellId} {b c : Cell}
  {tree : Expr} {cause : FormulaError}

section Cells

variable (h : Made settings made t)
include h

/-- In the end a cell is found at fault only for what its formula still fails for. -/
theorem compile_of_definition (hc : t.cell? x = some c) (he : c.error = some (.definition cause)) :
    compile t.resolver c.formula = .error cause := by
  cases h.pristine x c hc with
  | failed bare cause' error missing compiles =>
    obtain rfl : cause' = cause := by simpa [error] using he
    have hdead := (h.kept.alert.cells x c hc bare.isTable).dead
    refine compiles fun name hn => hdead name ?_ (by simp)
    simp [missing, hn, FormulaError.missing]
  | circular _ _ error => cases error.symm.trans he
  | carried _ _ _ error => cases error.symm.trans he
  | evaluated _ _ _ _ _ error => cases error.symm.trans he
  | shown _ _ _ _ _ error => cases error.symm.trans he

theorem error_of_compile_error (hc : t.cell? x = some c)
    (he : compile t.resolver c.formula = .error cause) : c.error = some (.definition cause) := by
  cases h.pristine x c hc with
  | failed _ _ error =>
    rw [error, Except.error.inj ((h.compile_of_definition hc error).symm.trans he)]
  | circular _ _ _ _ cycle =>
    obtain ⟨y, ⟨c', tree, hc', he', -⟩, -⟩ := TransGen.head'_iff.mp cycle
    obtain rfl := Option.some.inj (hc'.symm.trans (cell?_id hc ▸ hc))
    cases he'.symm.trans he
  | carried _ grown => cases grown.compiles.symm.trans he
  | evaluated _ grown => cases grown.compiles.symm.trans he
  | shown _ grown => cases grown.compiles.symm.trans he

/-- In the end a cell whose formula compiles has its tree, unless it closes a cycle. -/
theorem grown_of_compiles (hc : t.cell? x = some c) (he : compile t.resolver c.formula = .ok tree)
    (straight : ¬t.IsCircular x) : c.Grown t tree := by
  have hgrown : ∀ tree', c.Grown t tree' → c.Grown t tree := by
    intro tree' hg
    rwa [← Except.ok.inj (hg.compiles.symm.trans he)]
  cases h.pristine x c hc with
  | failed _ _ error => cases (h.compile_of_definition hc error).symm.trans he
  | circular _ name error =>
    exact absurd ⟨c, hc, by simp [Cell.errorKind?, error, CellError.kind]⟩ straight
  | carried _ grown => exact hgrown _ grown
  | evaluated _ grown => exact hgrown _ grown
  | shown _ grown => exact hgrown _ grown

theorem refers_of_mentions (hm : t.Mentions x y) (straight : ¬t.IsCircular x) : t.Refers x y := by
  obtain ⟨c, tree, hc, he, hy⟩ := hm
  have hgrown := h.grown_of_compiles hc he straight
  obtain ⟨name, hname⟩ := resolve_of_mem_cells he hy
  exact h.kept.sound.bound.refers hc hgrown.tree? hy (h.kept.sound.indexed.mem_ids hname)

theorem hasError_of_belowError (hc : t.cell? x = some c) (below : t.BelowError c) :
    t.hasError x = true := by
  rw [hasError, hc]
  cases h.pristine x c hc with
  | failed _ _ error => simp [Cell.hasError, error]
  | circular _ _ error => simp [Cell.hasError, error]
  | carried _ _ _ error => simp [Cell.hasError, error]
  | evaluated _ _ clear => exact absurd below clear
  | shown _ _ clear => exact absurd below clear

theorem mem_deep_iff (hc : t.cell? x = some c) : y ∈ c.deep ↔ TransGen t.Refers x y := by
  rw [← deepOf_of_cell? hc]
  exact (h.kept.sound.upToDate x).deep y

/-- What refers to a cell in error is in error, also if it closes a cycle. -/
theorem hasError_of_mentions (hm : t.Mentions x y) (error : t.hasError y = true) :
    t.hasError x = true := by
  obtain ⟨c, -, hc, -, -⟩ := id hm
  by_cases hcircular : t.IsCircular x
  · obtain ⟨c', hc', hk⟩ := hcircular
    rw [hasError, hc']
    exact Cell.hasError_of_errorKind? hk
  · refine h.hasError_of_belowError hc ⟨y, ?_, error⟩
    exact (h.mem_deep_iff hc).mpr (.single (h.refers_of_mentions hm hcircular))

theorem exists_cell {r : Record} (hr : r ∈ made) : ∃ c, t.cell? c.id = some c ∧ c.record = r := by
  obtain ⟨x, hx⟩ := (h.records r).mp hr
  obtain ⟨c, hc, hrecord⟩ := Option.map_eq_some_iff.mp hx
  exact ⟨c, cell?_id hc ▸ hc, hrecord⟩

theorem record_mem (hc : t.cell? x = some c) : c.record ∈ made :=
  (h.records c.record).mpr ⟨x, by rw [hc]; rfl⟩

theorem resolver_ne_none_iff {name : String} :
    t.resolver name ≠ none ↔ name ∈ made.map Record.name := by
  constructor
  · exact fun hn => by_contra fun hm => hn (h.idOf?_eq_none hm)
  · intro hm
    obtain ⟨r, hr, rfl⟩ := List.mem_map.mp hm
    obtain ⟨c, hc, rfl⟩ := h.exists_cell hr
    exact Option.ne_none_iff_exists'.mpr ⟨c.id, h.kept.sound.indexed.idOf?_name hc⟩

theorem get_name (hc : t.cell? x = some c) : t.get c.name = .ok c := by
  rw [Sheet.get, h.kept.sound.indexed.idOf?_name hc, Option.bind_some, hc]

theorem get_of_not_mem {name : String} (hn : name ∉ made.map Record.name) :
    t.get name = .error (.notFound name) := by
  rw [Sheet.get, h.idOf?_eq_none hn]
  rfl

end Cells

section Names

variable {d : Document} (h : Made settings d.cells t)
include h

/-- The cells refer to each other as the records do by name. -/
theorem mentions_iff (hc : t.cell? x = some c) (hb : t.cell? y = some b) :
    t.Mentions x y ↔ d.Mentions c.name b.name := by
  have hindexed := h.kept.sound.indexed
  have hknown : ∀ name, d.resolver name ≠ none ↔ t.resolver name ≠ none := fun name =>
    d.resolver_ne_none_iff.trans h.resolver_ne_none_iff.symm
  constructor
  · rintro ⟨c', tree, hc', he, hy⟩
    obtain rfl := Option.some.inj (hc.symm.trans hc')
    rw [Expr.cells_eq] at hy
    obtain ⟨ref, hr, rfl⟩ := List.mem_map.mp hy
    have hunder := compile_under_of_known he fun name => (hknown name).mpr
    refine ⟨c.record, h.record_mem hc, rfl, _, hunder, ref.under d.resolver, ?_, ?_⟩
    · rw [Expr.refs_mapRefs]
      exact List.mem_map_of_mem hr
    · exact hindexed.name_eq (resolve_of_mem_refs he hr).2 (hindexed.idOf?_name hb)
  · rintro ⟨r, hr, hname, tree, he, ref, href, hrname⟩
    obtain ⟨c', hc', rfl⟩ := h.exists_cell hr
    obtain rfl := hindexed.eq_of_name hc' hc hname
    have hunder := compile_under_of_known he fun name => (hknown name).mp
    refine ⟨c', _, hc, hunder, ?_⟩
    rw [Expr.cells_eq, Expr.refs_mapRefs, List.map_map]
    refine List.mem_map.mpr ⟨ref, href, ?_⟩
    have hy : t.resolver ref.name = some y := hrname ▸ hindexed.idOf?_name hb
    simp [CellRef.under, hy]

theorem displayName_mentions (hm : t.Mentions x y) :
    d.Mentions (t.displayName x) (t.displayName y) := by
  obtain ⟨c, tree, hc, he, hy⟩ := id hm
  obtain ⟨name, hname⟩ := resolve_of_mem_cells he hy
  obtain ⟨b, hb, -⟩ := (h.kept.sound.indexed.names name y).mp hname
  simp only [displayName, hc, hb]
  exact (h.mentions_iff hc hb).mp hm

end Names

end Sheet.Made

end LiveSheet
