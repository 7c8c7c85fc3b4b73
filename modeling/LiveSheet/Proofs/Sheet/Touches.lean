import LiveSheet.Proofs.Sheet.Waiting

namespace LiveSheet

open Relation

/-- What a subscriber is told of a cell as it changes. -/
structure Profile where
  name : String
  formula : String
  value : Value
  error : Option CellError

def Cell.profile (c : Cell) : Profile :=
  ⟨c.name, c.formula, c.value, c.error⟩

theorem Cell.detach_profile (gone c : Cell) : (detach gone c).profile = c.profile := by
  unfold detach
  dsimp only
  split_ifs <;> rfl

/-- Where the error is from that a cell of the sheet comes to have. -/
inductive Sheet.Raises (s : Sheet) : Option CellError → Prop
  | clear : s.Raises none
  | definition {formula : String} {cause : FormulaError}
    (failed : compile s.resolver formula = .error cause) : s.Raises (some (.definition cause))
  | evaluation {id : CellId} {c : Cell} {tree : Expr} {cause : FormulaError}
    (hc : s.cell? id = some c) (ht : c.tree? = some tree)
    (failed : tree.eval s.context = .error cause) : s.Raises (some (.evaluation cause))
  | circular (name : String) : s.Raises (some (.circular name))
  | carried (name : String) : s.Raises (some (.carried name))

/-- A change that keeps what a subscriber is told of each cell. A tree that comes up is that of a
formula. -/
structure Sheet.Quiet (s : Sheet) (f : Cell → Cell) : Prop where
  id : ∀ c, (f c).id = c.id
  profile : ∀ c, (f c).profile = c.profile
  trees : ∀ c tree, (f c).tree? = some tree →
    c.tree? = some tree ∨ ∃ formula, compile s.resolver formula = .ok tree

namespace Edit

open Sheet

/-- All that happens to the cells in the course of an edit: each thing told of a cell is told with
the change, and only if it is one. -/
inductive Touches : Edit → Edit → Prop
  | quiet {e : Edit} {f : Cell → Cell} (quiet : e.sheet.Quiet f) :
    Touches e ⟨e.sheet.through f, e.changes⟩
  | value {e : Edit} {id : CellId} {c : Cell} {v : Value} (hc : e.sheet.cell? id = some c)
    (news : (c.value == v) = false) :
    Touches e ((e.modify id fun c => { c with value := v }).announce id (.valueChanged v))
  | error {e : Edit} {id : CellId} {c : Cell} {error : Option CellError}
    (hc : e.sheet.cell? id = some c) (news : c.error ≠ error) (raised : e.sheet.Raises error) :
    Touches e ((e.modify id fun c => { c with error := error }).announce id (.errorChanged error))
  | formula {e : Edit} {id : CellId} {c : Cell} {formula : String}
    (hc : e.sheet.cell? id = some c) (news : c.formula ≠ formula) :
    Touches e ((e.modify id fun c => { c with formula := formula }).announce id
      (.formulaChanged formula))

/-- One edit goes on from another by changes of these kinds. -/
def Becomes (e e' : Edit) : Prop :=
  ReflTransGen Touches e e'

variable {e e' : Edit} {id : CellId} {c : Cell}

theorem Becomes.trans {e₁ e₂ e₃ : Edit} (h : Becomes e₁ e₂) (h' : Becomes e₂ e₃) :
    Becomes e₁ e₃ :=
  ReflTransGen.trans h h'

theorem becomes_foldl {α : Type} {step : Edit → α → Edit}
    (steps : ∀ e a, Becomes e (step e a)) (e : Edit) (as : List α) :
    Becomes e (as.foldl step e) := by
  induction as generalizing e with
  | nil => exact .refl
  | cons a rest ih => exact (steps e a).trans (ih (step e a))

theorem becomes_modify {f : Cell → Cell} (quiet : e.sheet.Quiet f) (id : CellId) :
    Becomes e (e.modify id f) := by
  refine .single (.quiet (f := fun c => if c.id = id then f c else c) ⟨?_, ?_, ?_⟩)
  · intro c
    split
    next => exact quiet.id c
    next => rfl
  · intro c
    split
    next => exact quiet.profile c
    next => rfl
  · intro c tree ht
    split at ht
    next => exact quiet.trees c tree ht
    next => exact .inl ht

theorem becomes_setDeep (e : Edit) (id : CellId) (deep : IdSet) : Becomes e (e.setDeep id deep) :=
  becomes_modify (f := fun c => { c with deep := deep })
    ⟨fun _ => rfl, fun _ => rfl, fun _ _ ht => .inl ht⟩ id

theorem becomes_setReferences (e : Edit) (id : CellId) (references : IdSet) :
    Becomes e (e.setReferences id references) := by
  unfold setReferences
  split
  next => exact .refl
  next c hc =>
    have hsame : ∀ d, (Cell.relink id c.references references d).profile = d.profile ∧
        (Cell.relink id c.references references d).tree? = d.tree? := by
      intro d
      unfold Cell.relink
      dsimp only
      split_ifs <;> exact ⟨rfl, rfl⟩
    refine .single (.quiet ⟨Cell.relink_id id _ _, fun d => (hsame d).1, fun d tree ht => ?_⟩)
    rw [(hsame d).2] at ht
    exact .inl ht

theorem becomes_setValue (e : Edit) (id : CellId) (v : Value) : Becomes e (e.setValue id v) := by
  unfold setValue
  split
  next => exact .refl
  next c hc =>
    split
    next => exact .refl
    next hne => exact .single (.value hc (by simpa using hne))

theorem becomes_setError {error : Option CellError} (id : CellId)
    (raised : e.sheet.Raises error) : Becomes e (e.setError id error) := by
  unfold setError
  split
  next => exact .refl
  next c hc =>
    split
    next => exact .refl
    next hne => exact .single (.error hc hne raised)

theorem becomes_setFormula (e : Edit) (id : CellId) (formula : String) :
    Becomes e (e.setFormula id formula) := by
  unfold setFormula
  split
  next => exact .refl
  next c hc =>
    split
    next => exact .refl
    next hne => exact .single (.formula hc hne)

theorem becomes_clearStructural (e : Edit) (id : CellId) : Becomes e (e.clearStructural id) := by
  unfold clearStructural
  split
  next => exact becomes_setError id .clear
  next => exact .refl

theorem becomes_recompute (e : Edit) (id : CellId) : Becomes e (e.recompute id) := by
  unfold recompute
  split
  next => exact .refl
  next c hc =>
    split
    next => exact .refl
    next =>
      split
      next => exact .refl
      next tree ht =>
        split
        next => exact becomes_setError id (.carried _)
        next =>
          split
          next v _ => exact (becomes_setError id .clear).trans (becomes_setValue _ id v)
          next cause failed => exact becomes_setError id (.evaluation hc ht failed)

theorem becomes_refreshAll (e : Edit) (order : List CellId) : Becomes e (e.refreshAll order) :=
  becomes_foldl (fun e id => (becomes_setDeep e id _).trans (becomes_recompute _ id)) e order

theorem becomes_propagate (e : Edit) (id : CellId) : Becomes e (e.propagate id) :=
  becomes_refreshAll e _

theorem becomes_failDefinition {formula : String} {cause : FormulaError} (id : CellId)
    (failed : compile e.sheet.resolver formula = .error cause) :
    Becomes e (e.failDefinition id cause) := by
  let f : Cell → Cell := fun c => { c with content := .formula none, unresolved := cause.missing }
  have hmodify : Becomes e (e.modify id f) :=
    becomes_modify (f := f) ⟨fun _ => rfl, fun _ => rfl, fun _ _ ht => nomatch ht⟩ id
  have hfaulted : Becomes (e.modify id f) (e.faulted id cause) :=
    becomes_setError id (.definition failed)
  rw [failDefinition_eq]
  exact (hmodify.trans hfaulted).trans (becomes_propagate _ id)

theorem becomes_breakCycle (e : Edit) (id : CellId) : Becomes e (e.breakCycle id) := by
  have hunlink : Becomes e (e.unlink id) :=
    (becomes_setReferences e id ∅).trans
      (becomes_modify (f := Cell.blank) ⟨fun _ => rfl, fun _ => rfl, fun _ _ ht => nomatch ht⟩ id)
  have hcut : Becomes (e.unlink id) (e.cutOff id) := becomes_setError id (.circular _)
  rw [breakCycle_eq]
  exact (hunlink.trans hcut).trans (becomes_foldl (fun e id => becomes_setDeep e id _) _ _)

theorem becomes_settle {formula : String} {tree : Expr} (id : CellId)
    (compiles : compile e.sheet.resolver formula = .ok tree) : Becomes e (e.settle id tree) := by
  have hplanted : Becomes e (e.planted id tree) := by
    refine (becomes_modify (f := fun c => { c with
      content := .formula (some tree), unresolved := [] })
      ⟨fun _ => rfl, fun _ => rfl, ?_⟩ id).trans
        (becomes_setReferences _ id tree.references)
    intro c t ht
    obtain rfl : tree = t := Option.some.inj ht
    exact .inr ⟨formula, compiles⟩
  have hrefreshed : Becomes (e.planted id tree) ((e.planted id tree).refreshed id) :=
    ((becomes_setDeep _ id _).trans (becomes_clearStructural _ id)).trans (becomes_recompute _ id)
  rw [settle_eq]
  split
  next => exact hplanted.trans (becomes_breakCycle _ id)
  next => exact (hplanted.trans hrefreshed).trans (becomes_propagate _ id)

theorem becomes_applyFormula (e : Edit) (id : CellId) : Becomes e (e.applyFormula id) := by
  unfold applyFormula
  split
  next => exact .refl
  next c hc =>
    split
    next => exact .refl
    next =>
      split
      next tree compiles => exact becomes_settle id compiles
      next cause failed => exact becomes_failDefinition id failed

theorem becomes_rebind (e : Edit) (name : String) : Becomes e (e.rebind name) :=
  becomes_foldl becomes_applyFormula e _

theorem becomes_renameMentions {old new : String} (ne : old ≠ new) (e : Edit) (id : CellId) :
    Becomes e (renameMentions old new e id) := by
  unfold renameMentions
  split
  next formula hrenamed =>
    obtain ⟨c, hc, hformula⟩ := Option.bind_eq_some_iff.mp hrenamed
    exact .single (.formula hc (renameReference?_ne hformula ne).symm)
  next => exact .refl

end Edit

namespace Sheet

open Edit

/-- How an operation begins that removes the cell `gone`, if any; what follows happens to the cells
that there are then. -/
inductive Opens (s : Sheet) (gone : Option CellId) : Edit → Prop
  | same : s.Opens gone s.unchanged
  | insert {wanted : Option String} {name : String} {t : Sheet} {content : Content}
    (claim : s.claimName wanted = .ok (name, t)) (formula : String)
    (treeless : ∀ tree, content ≠ .formula (some tree)) :
    s.Opens gone (t.insertCell name formula content).unchanged
  | remove {c : Cell} (hc : s.cell? c.id = some c) (removes : gone = some c.id) :
    s.Opens gone ((s.removeCell c).unchanged.announce c.id .deleteRequested)
  | relabel {c : Cell} {new : String} (hc : s.cell? c.id = some c)
    (valid : isValidName new = true) (free : s.idOf? new = none) :
    s.Opens gone ((s.relabel c.id c.name new).unchanged.announce c.id (.nameChanged c.name new))
  | regrid {id : CellId} {c : Cell} (hc : s.cell? id = some c) (grid : Grid) :
    s.Opens gone ((s.unchanged.modify id fun c => { c with content := .table grid }).announce id
      (.tableChanged grid.rows grid.cols))

/-- An edit that begins as the operations do and goes on with changes to the cells. -/
def Runs (s : Sheet) (gone : Option CellId) (e : Edit) : Prop :=
  ∃ start, s.Opens gone start ∧ Becomes start e

variable {s : Sheet} {id : CellId} {gone : Option CellId} {e : Edit}

theorem Runs.refl (s : Sheet) (gone : Option CellId) : s.Runs gone s.unchanged :=
  ⟨s.unchanged, .same, .refl⟩

theorem createCell_runs {wanted formula : Option String}
    (h : s.createCell wanted formula = .ok (id, e)) : s.Runs gone e := by
  obtain ⟨name, t, hclaim, -, rfl⟩ := createCell_eq_ok h
  exact ⟨_, .insert hclaim _ fun _ ht => (by cases ht),
    (becomes_applyFormula _ t.nextId).trans (becomes_rebind _ name)⟩

theorem createTable_runs {wanted : Option String} {rows cols : Nat}
    (h : s.createTable wanted rows cols = .ok (id, e)) : s.Runs gone e := by
  obtain ⟨name, t, hclaim, -, rfl⟩ := createTable_eq_ok h
  exact ⟨_, .insert hclaim _ fun _ ht => (by cases ht), becomes_rebind _ name⟩

theorem deleteCell_runs (h : s.deleteCell id = .ok e) : s.Runs (some id) e := by
  obtain ⟨c, rfl, hc, rfl⟩ := deleteCell_eq_ok h
  exact ⟨_, .remove hc rfl, becomes_refreshAll _ _⟩

theorem setFormula_runs {formula : String} (h : s.setFormula id formula = .ok e) :
    s.Runs gone e := by
  obtain ⟨c, -, -, rfl⟩ := setFormula_eq_ok h
  exact ⟨_, .same, (becomes_setFormula _ id formula).trans (becomes_applyFormula _ id)⟩

theorem rename_runs {new : String} (indexed : s.Indexed) (h : s.rename id new = some e) :
    s.Runs gone e := by
  rcases rename_eq_rebind h with rfl | ⟨c, hc, rfl, hvalid, hfree, rfl⟩
  · exact .refl s gone
  · have hne : c.name ≠ new := by
      intro he
      rw [← he, indexed.idOf?_name hc] at hfree
      cases hfree
    exact ⟨_, .relabel hc hvalid hfree,
      (becomes_foldl (becomes_renameMentions hne) _ _).trans (becomes_rebind _ new)⟩

theorem replaceGrid_runs {c : Cell} (hc : s.cell? id = some c) (grid : Grid) :
    s.Runs gone (s.replaceGrid id grid) :=
  ⟨_, .regrid hc grid, becomes_propagate _ id⟩

end Sheet

end LiveSheet
