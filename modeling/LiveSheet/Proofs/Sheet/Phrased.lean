import LiveSheet.Proofs.Formula.Renaming
import LiveSheet.Proofs.Sheet.Runs

namespace LiveSheet

/-- The tree without the names in its references. -/
def Expr.anonymous (e : Expr) : Expr :=
  e.mapRefs fun ref => ⟨ref.id, ""⟩

mutual

theorem Expr.cells_mapRefs {f : CellRef → CellRef} (hf : ∀ ref, (f ref).id = ref.id) (e : Expr) :
    (e.mapRefs f).cells = e.cells := by
  cases e <;> simp [mapRefs, cells, hf, cells_mapRefs hf, cellsAll_mapRefsAll hf]

theorem Expr.cellsAll_mapRefsAll {f : CellRef → CellRef} (hf : ∀ ref, (f ref).id = ref.id)
    (es : List Expr) : cellsAll (mapRefsAll f es) = cellsAll es := by
  cases es <;> simp [mapRefsAll, cellsAll, cells_mapRefs hf, cellsAll_mapRefsAll hf]

end

theorem Expr.cells_eq_of_anonymous {e e' : Expr} (h : e.anonymous = e'.anonymous) :
    e.cells = e'.cells := by
  have hc : ∀ x : Expr, x.anonymous.cells = x.cells := cells_mapRefs fun _ => rfl
  rw [← hc e, ← hc e', h]

theorem Expr.anonymous_renamed (old new : String) (e : Expr) :
    (e.mapRefs (CellRef.renamed old new)).anonymous = e.anonymous := by
  rw [anonymous, mapRefs_mapRefs]
  congr 1
  funext ref
  simp only [Function.comp_apply, CellRef.renamed]
  split <;> rfl

/-- What a cell is called, and what its formula and its tree are. -/
def Cell.script (c : Cell) : Cell :=
  { Cell.new c.id c.name c.formula c.content with unresolved := c.unresolved }

namespace Sheet

variable {s t u : Sheet} {id x : CellId} {c : Cell}

/-- The formula of a cell still compiles to the tree of the cell, up to the names in it. -/
structure InPhrase (s : Sheet) (c : Cell) (tree : Expr) : Prop where
  resolved : c.unresolved = []
  compiles : ∃ e, compile s.resolver c.formula = .ok e ∧ e.anonymous = tree.anonymous

/-- Formulas and trees agree, except where a tree names a cell that is gone. -/
def Phrased (s : Sheet) : Prop :=
  ∀ x c tree, s.cell? x = some c → c.tree? = some tree → (∀ y ∈ tree.cells, y ∈ s.ids) →
    s.InPhrase c tree

def PhrasedBut (s : Sheet) (id : CellId) : Prop :=
  ∀ x c tree, x ≠ id → s.cell? x = some c → c.tree? = some tree →
    (∀ y ∈ tree.cells, y ∈ s.ids) → s.InPhrase c tree

theorem Phrased.phrasedBut (h : s.Phrased) (id : CellId) : s.PhrasedBut id :=
  fun x c tree _ => h x c tree

/-- The sheets have the same names and differ in the formula and tree of at most one cell. -/
structure Rescripts (s t : Sheet) (id : CellId) : Prop where
  names : t.names = s.names
  ids : t.ids = s.ids
  others : ∀ x, x ≠ id → (t.cell? x).map Cell.script = (s.cell? x).map Cell.script

namespace Rescripts

theorem trans (h : s.Rescripts t id) (h' : t.Rescripts u id) : s.Rescripts u id :=
  ⟨h'.names.trans h.names, h'.ids.trans h.ids, fun x hx => (h'.others x hx).trans (h.others x hx)⟩

theorem modify {f : Cell → Cell} (hf : ∀ c, (f c).id = c.id) (s : Sheet) (id : CellId) :
    s.Rescripts (s.modify id f) id :=
  ⟨rfl, ids_modify hf s id, fun x hx => by rw [cell?_modify_ne hf s hx]⟩

theorem of_script (h : t.through Cell.script = s.through Cell.script) (id : CellId) :
    s.Rescripts t id := by
  have hn : (t.through Cell.script).names = (s.through Cell.script).names := by rw [h]
  have hi : (t.through Cell.script).ids = (s.through Cell.script).ids := by rw [h]
  have hids : ∀ u : Sheet, (u.through Cell.script).ids = u.ids := ids_through fun _ => rfl
  rw [hids, hids] at hi
  refine ⟨hn, hi, fun x _ => ?_⟩
  rw [← cell?_through (f := Cell.script) (fun _ => rfl) t,
    ← cell?_through (f := Cell.script) (fun _ => rfl) s, h]

theorem of_outline (h : t.outline = s.outline) (id : CellId) : s.Rescripts t id := by
  apply of_script
  have ho : ∀ u : Sheet, u.through Cell.script = u.outline.through Cell.script := fun u =>
    (through_through Cell.outline Cell.script u).symm
  rw [ho s, ho t, h]

theorem setReferences (e : Edit) (id : CellId) (references : IdSet) :
    e.sheet.Rescripts (e.setReferences id references).sheet id := by
  apply of_script
  unfold Edit.setReferences
  split
  next => rfl
  next c _ =>
    simp only [through, List.map_map]
    congr 1
    apply List.map_congr_left
    intro d _
    simp only [Function.comp_apply, Cell.relink]
    split_ifs <;> rfl

theorem phrased (h : s.Rescripts t id) (hs : s.PhrasedBut id)
    (here : ∀ c tree, t.cell? id = some c → c.tree? = some tree →
      c.unresolved = [] ∧ compile s.resolver c.formula = .ok tree) : t.Phrased := by
  have hresolver : t.resolver = s.resolver := by
    funext name
    simp only [resolver, idOf?, h.names]
  intro x c tree hc ht hlive
  rw [h.ids] at hlive
  by_cases hx : x = id
  · subst x
    obtain ⟨hu, he⟩ := here c tree hc ht
    exact ⟨hu, tree, hresolver ▸ he, rfl⟩
  · have hother := h.others x hx
    rw [hc, Option.map_some] at hother
    obtain ⟨d, hd, hscript⟩ := Option.map_eq_some_iff.mp hother.symm
    have htree : d.script.tree? = c.script.tree? := by rw [hscript]
    have hformula : d.script.formula = c.script.formula := by rw [hscript]
    have hunresolved : d.script.unresolved = c.script.unresolved := by rw [hscript]
    obtain ⟨hu, e, he, hanon⟩ := hs x d tree hx hd (htree.trans ht) hlive
    change d.formula = c.formula at hformula
    exact ⟨hunresolved.symm.trans hu, e, by rw [hresolver, ← hformula]; exact he, hanon⟩

end Rescripts

end Sheet

namespace Edit

variable {e e' : Edit} {id : CellId} {c : Cell}

theorem outline_refreshAll (e : Edit) (order : List CellId) :
    (e.refreshAll order).sheet.outline = e.sheet.outline := by
  induction order generalizing e with
  | nil => rfl
  | cons x rest ih => exact (ih (e.refresh x)).trans (within_refresh e x).outline

theorem outline_recollectAll (e : Edit) (order : List CellId) :
    (order.foldl recollect e).sheet.outline = e.sheet.outline := by
  induction order generalizing e with
  | nil => rfl
  | cons x rest ih => exact (ih (e.recollect x)).trans (within_setDeep e x _).outline

/-- A cell that cannot be settled has no tree and leaves all other formulas alone. -/
theorem failDefinition_phrased (hs : e.sheet.PhrasedBut id) (hc : e.sheet.cell? id = some c)
    (cause : FormulaError) : (e.failDefinition id cause).sheet.Phrased := by
  let f : Cell → Cell := fun c => { c with content := .formula none, unresolved := cause.missing }
  have hcell : (e.modify id f).sheet.cell? id = some (f c) :=
    modify_cell? (f := f) (fun _ => rfl) hc
  have houtline : (e.failDefinition id cause).sheet.outline = (e.modify id f).sheet.outline :=
    (outline_refreshAll (e.faulted id cause) _).trans
      (within_setError (e.modify id f) id _).outline
  have hrescripts : e.sheet.Rescripts (e.failDefinition id cause).sheet id :=
    (Sheet.Rescripts.modify (f := f) (fun _ => rfl) e.sheet id).trans (.of_outline houtline id)
  apply hrescripts.phrased hs
  intro d tree hd ht
  obtain ⟨d', hd', ho⟩ := Sheet.cell?_outline houtline hd
  obtain rfl := Option.some.inj (hcell.symm.trans hd')
  rw [← Cell.tree?_eq_of_outline ho] at ht
  cases ht

theorem breakCycle_phrased (hs : e.sheet.PhrasedBut id)
    (rescripts : e.sheet.Rescripts e'.sheet id) (hc : e'.sheet.cell? id = some c) :
    (e'.breakCycle id).sheet.Phrased := by
  let f : Cell → Cell := fun c => { c with deep := ∅, content := .formula none }
  let e₁ := (e'.setReferences id ∅).modify id f
  let e₂ := e₁.setError id (some (.circular (e₁.sheet.displayName id)))
  obtain ⟨referencedBy, hself⟩ := setReferences_cell?_self hc ∅
  have hcell := modify_cell? (f := f) (fun _ => rfl) hself
  have houtline : (e'.breakCycle id).sheet.outline = e₁.sheet.outline :=
    (outline_recollectAll e₂ (e₂.sheet.below id)).trans (within_setError e₁ id _).outline
  have hrescripts : e.sheet.Rescripts (e'.breakCycle id).sheet id :=
    ((rescripts.trans (.setReferences e' id ∅)).trans
      (.modify (f := f) (fun _ => rfl) (e'.setReferences id ∅).sheet id)).trans
      (.of_outline houtline id)
  apply hrescripts.phrased hs
  intro d tree hd ht
  obtain ⟨d', hd', ho⟩ := Sheet.cell?_outline houtline hd
  obtain rfl := Option.some.inj (hcell.symm.trans hd')
  rw [← Cell.tree?_eq_of_outline ho] at ht
  cases ht

theorem settle_phrased {tree : Expr} (hs : e.sheet.PhrasedBut id)
    (hc : e.sheet.cell? id = some c) (compiles : compile e.sheet.resolver c.formula = .ok tree) :
    (e.settle id tree).sheet.Phrased := by
  let f : Cell → Cell := fun c => { c with content := .formula (some tree), unresolved := [] }
  obtain ⟨referencedBy, hcell⟩ := planted_cell? hc tree
  have hrescripts : e.sheet.Rescripts (e.planted id tree).sheet id :=
    (Sheet.Rescripts.modify (f := f) (fun _ => rfl) e.sheet id).trans
      (.setReferences (e.modify id f) id _)
  rw [settle_eq]
  split
  next => exact breakCycle_phrased hs hrescripts hcell
  next =>
    have houtline : (((e.planted id tree).refreshed id).propagate id).sheet.outline =
        (e.planted id tree).sheet.outline :=
      (outline_refreshAll _ _).trans (within_refreshed (e.planted id tree) id).outline
    apply (hrescripts.trans (.of_outline houtline id)).phrased hs
    intro d tree' hd ht
    obtain ⟨d', hd', ho⟩ := Sheet.cell?_outline houtline hd
    obtain rfl := Option.some.inj (hcell.symm.trans hd')
    have hformula := congrArg Cell.formula ho
    have hunresolved := congrArg Cell.unresolved ho
    rw [← Cell.tree?_eq_of_outline ho] at ht
    obtain rfl : tree = tree' := Option.some.inj ht
    change c.formula = d.formula at hformula
    exact ⟨hunresolved.symm, by rw [← hformula]; exact compiles⟩

theorem applyFormula_phrased (hs : e.sheet.PhrasedBut id) (hc : e.sheet.cell? id = some c)
    (formula : c.isTable = false) : (e.applyFormula id).sheet.Phrased := by
  simp only [applyFormula, hc, formula, Bool.false_eq_true, ↓reduceIte]
  cases hcompile : compile e.sheet.resolver c.formula with
  | error cause => exact failDefinition_phrased hs hc cause
  | ok tree => exact settle_phrased hs hc hcompile

theorem rebind_phrased (hs : e.sheet.Phrased) (name : String) : (e.rebind name).sheet.Phrased := by
  refine rebind_invariant Sheet.Phrased (fun e id hs => ?_) hs name
  rcases applyFormula_cases e id with ⟨c, hc, ht⟩ | ⟨hstay, -⟩
  · exact applyFormula_phrased (hs.phrasedBut id) hc ht
  · rwa [hstay]

end Edit

end LiveSheet
