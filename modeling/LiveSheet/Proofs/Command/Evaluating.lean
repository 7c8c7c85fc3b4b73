import LiveSheet.Command.Run
import LiveSheet.Formula.Bindings
import LiveSheet.Proofs.Number.Zeros
import LiveSheet.Proofs.Sheet.Breakage
import LiveSheet.Proofs.Sheet.Locality

namespace LiveSheet

open Relation

/-- The formula compiles where no name stands for a cell, and its tree has the value. -/
def Computes (formula : String) (v : Value) : Prop :=
  ∃ tree, compile Bindings.empty.resolve formula = .ok tree ∧
    tree.eval Bindings.empty.context = .ok v

section Closed

variable {resolve other : Resolver} {formula : String} {tree : Expr} {v : Value}

theorem Expr.eval_of_closed {ctx ctx' : Context} (closed : tree.refs = []) :
    tree.eval ctx = tree.eval ctx' :=
  (eval_sameUpTo (fun _ => rfl) tree fun ref hr => by simp [closed] at hr).eq

theorem compile_of_closed (h : compile resolve formula = .ok tree) (closed : tree.refs = []) :
    compile other formula = .ok tree :=
  compile_congr h fun ref hr => by simp [closed] at hr

theorem closed_of_compile_empty (h : compile Bindings.empty.resolve formula = .ok tree) :
    tree.refs = [] := by
  refine List.eq_nil_iff_forall_not_mem.mpr fun ref hr => ?_
  cases (resolve_of_mem_refs h hr).2

/-- Where a formula compiles to a tree, that is the one from which it is computed without cells. -/
theorem computes_iff (h : compile resolve formula = .ok tree) (ctx : Context) :
    Computes formula v ↔ tree.refs = [] ∧ tree.eval ctx = .ok v := by
  constructor
  · rintro ⟨tree', hcompile, hv⟩
    have hclosed := closed_of_compile_empty hcompile
    obtain rfl := Except.ok.inj ((compile_of_closed hcompile hclosed).symm.trans h)
    exact ⟨hclosed, (Expr.eval_of_closed hclosed).trans hv⟩
  · rintro ⟨hclosed, hv⟩
    exact ⟨tree, compile_of_closed h hclosed, (Expr.eval_of_closed hclosed).trans hv⟩

theorem not_computes {cause : FormulaError} (h : compile resolve formula = .error cause) :
    ¬Computes formula v := by
  rintro ⟨tree, hcompile, -⟩
  cases (compile_of_closed hcompile (closed_of_compile_empty hcompile)).symm.trans h

end Closed

/-- The cell shows what its formula computes without any cells, or is in error if
that is nothing. -/
inductive Cell.Computed (formula : String) (c : Cell) : Prop
  | shown (v w : Value) (computes : Computes formula v) (read : c.read = .ok w) (same : w.Same v)
  | failed (error : CellError) (read : c.read = .error error) (nothing : ∀ v, ¬Computes formula v)

theorem Sheet.Linked.not_refers_of_single {s : Sheet} {id : CellId} (linked : s.Linked)
    (single : s.ids = [id]) (x y : CellId) : ¬s.Refers x y := by
  intro h
  have hx := mem_ids_of_mem_referencesOf h
  have hy := linked.mem_ids h
  rw [single, List.mem_singleton] at hx hy
  subst hx hy
  exact linked.acyclic _ (.single h)

namespace Edit

open Sheet

variable {e : Edit} {id : CellId} {c d : Cell} {name text : String} {tree : Expr}

theorem Recomputed.computed {resolve : Resolver} (h : e.Recomputed c d)
    (formula : c.isTable = false)
    (ht : c.tree? = some tree) (sane : c.isStructural = false) (clear : ¬e.sheet.BelowError c)
    (hcompile : compile resolve text = .ok tree) (closed : tree.refs = []) : d.Computed text := by
  cases h with
  | structural h => simp [sane] at h
  | treeless h => simp [ht] at h
  | below _ _ _ hbelow => exact absurd hbelow clear
  | failed _ tree' ht' _ cause hv heq =>
    obtain rfl := Option.some.inj (ht.symm.trans ht')
    subst heq
    refine .failed _ (Cell.read_of_error rfl) fun v hcomputes => ?_
    cases ((computes_iff hcompile _).mp hcomputes).2.symm.trans hv
  | shown _ tree' ht' _ v hv heq =>
    obtain rfl := Option.some.inj (ht.symm.trans ht')
    subst heq
    refine .shown v _ ((computes_iff hcompile _).mpr ⟨closed, hv⟩) ?_ (same_of_replaced c.value v)
    refine (Cell.read_eq_ok ?_).mpr ⟨rfl, rfl⟩
    exact formula

section Single

variable (single : e.sheet.ids = [id]) (hc : e.sheet.cell? id = some c)
    (formula : c.isTable = false)
include single hc formula

/-- The only cell of a sheet has nothing to refer to but itself. -/
theorem applyFormula_single (sound : e.sheet.SoundBut id) :
    ∃ d, (e.applyFormula id).sheet.cell? id = some d ∧ d.Computed c.formula := by
  cases applyFormula_applied sound hc formula with
  | failed cause hcompile here _ =>
    exact ⟨_, here, .failed _ (Cell.read_of_error rfl) fun v => not_computes hcompile⟩
  | circular tree hcompile closes d name here heq _ =>
    refine ⟨d, here, .failed _ (Cell.read_of_error (congrArg Cell.error heq)) fun v hv => ?_⟩
    obtain ⟨r, hr, -⟩ := closes
    rw [Expr.cells_eq, ((computes_iff hcompile Bindings.empty.context).mp hv).1] at hr
    cases hr
  | built tree hcompile d error sane here recomputed _ =>
    -- a reference would lead back to the cell, so the tree has none
    have hsound := applyFormula_sound sound hc formula
    have hrefers := hsound.linked.not_refers_of_single
      ((ids_eq_of_roster (applyFormula_roster e id)).trans single)
    have hclosed : tree.refs = [] := by
      refine List.eq_nil_iff_forall_not_mem.mpr fun ref hr => hrefers id ref.id ?_
      rw [← mem_references_iff here, Cell.references_eq_of_stance recomputed.stance_eq]
      exact Expr.mem_references.mpr (Expr.mem_cells_of_mem_refs hr)
    refine ⟨d, here, recomputed.computed rfl rfl sane ?_ hcompile hclosed⟩
    rintro ⟨x, hx, -⟩
    cases ((hsound.upToDate id).deep.mem_deep here).mp hx with
    | single h => exact hrefers _ _ h
    | tail _ h => exact hrefers _ _ h

/-- A cell does not wait for its own name, which its formula knows. -/
theorem rebind_single (indexed : e.sheet.Indexed) (own : e.sheet.idOf? name = some id) :
    (e.applyFormula id).rebind name = e.applyFormula id := by
  have hroster := applyFormula_roster e id
  refine rebind_of_unawaited (indexed.of_roster hroster.symm).nodup ?_
  rintro x ⟨b, hb, hname⟩
  obtain rfl : x = id := by
    have hx := mem_ids_iff.mpr ⟨b, hb⟩
    rwa [ids_eq_of_roster hroster, single, List.mem_singleton] at hx
  obtain ⟨b', hb', houtcome⟩ := applyFormula_outcome hc formula
  obtain rfl := Option.some.inj (hb'.symm.trans hb)
  have halert := (applyFormula_alertAt hc formula indexed).1 _ hb houtcome.isTable
  have hnone := halert.dead name hname (by simp)
  rw [idOf?_eq_of_roster hroster, own] at hnone
  cases hnone

end Single

end Edit

namespace Sheet

theorem createCell_single (settings : Settings) (formula : String) :
    ∃ id e d, (Sheet.new settings).createCell none (some formula) = .ok (id, e) ∧
      e.sheet.cell? id = some d ∧ d.Computed formula := by
  obtain ⟨⟨id, e⟩, hcreate⟩ : ∃ r, (Sheet.new settings).createCell none (some formula) = .ok r :=
    ⟨_, rfl⟩
  refine ⟨id, e, ?_⟩
  obtain ⟨name, t, hclaim, rfl, rfl⟩ := createCell_eq_ok hcreate
  have ht := (Sound.new settings).claim hclaim
  let inserted : Edit := (t.insertCell name formula (.formula none)).unchanged
  have hbut : inserted.sheet.SoundBut t.nextId :=
    ht.insertCell (claimName_free hclaim) formula (.formula none) (fun _ => nofun)
  have hcell : inserted.sheet.cell? t.nextId =
      some (Cell.new t.nextId name formula (.formula none)) :=
    ht.indexed.cell?_insertCell_self name formula (.formula none)
  have hsingle : inserted.sheet.ids = [t.nextId] := by
    obtain ⟨-, n, rfl⟩ := claimName_ok hclaim
    exact ids_insertCell _ name formula (.formula none)
  have hown : inserted.sheet.idOf? name = some t.nextId :=
    (idOf?_insertCell t name formula (.formula none) name).trans (if_pos rfl)
  obtain ⟨d, hd, hcomputed⟩ := Edit.applyFormula_single hsingle hcell rfl hbut
  refine ⟨d, hcreate, ?_, hcomputed⟩
  change ((inserted.applyFormula t.nextId).rebind name).sheet.cell? t.nextId = some d
  rwa [Edit.rebind_single hsingle hcell rfl hbut.indexed hown]

end Sheet

theorem Computes.unique {formula : String} {v w : Value} (hv : Computes formula v)
    (hw : Computes formula w) : v = w := by
  obtain ⟨tree, hcompile, hv⟩ := hv
  obtain ⟨tree', hcompile', hw⟩ := hw
  obtain rfl := Except.ok.inj (hcompile.symm.trans hcompile')
  exact Except.ok.inj (hv.symm.trans hw)

theorem evaluateAlone_cases (formula : String) :
    (∃ v, Computes formula v ∧ evaluateAlone formula = .success (v.asText ++ "\n") "") ∨
      (∀ v, ¬Computes formula v) ∧ ∃ failure, evaluateAlone formula = .failure "" failure := by
  obtain ⟨id, e, d, hcreate, hd, hcomputed⟩ := Sheet.createCell_single .default formula
  have hcell : e.sheet.cell id = .ok d := by rw [Sheet.cell, hd]
  simp only [evaluateAlone, Procedure.onSheet_createCell, hcreate, Except.map, hcell]
  cases hcomputed with
  | shown v w computes read same =>
    refine .inl ⟨v, computes, ?_⟩
    rw [read, ← same.asText_eq]
  | failed error read nothing =>
    refine .inr ⟨nothing, ⟨error.text, []⟩, ?_⟩
    rw [read]

/-- Evaluating a formula alone prints the text of what it computes without any cells. It fails if
that is nothing, and so does a formula that refers to a cell whatever the cells are called, also if
that is the cell in which it is put. -/
theorem evaluateAlone_iff (formula : String) :
    (∀ text, evaluateAlone formula = .success (text ++ "\n") "" ↔
      ∃ v, Computes formula v ∧ v.asText = text) ∧
    ((∀ v, ¬Computes formula v) → ∃ failure, evaluateAlone formula = .failure "" failure) ∧
    ∀ (resolve : Resolver) tree, compile resolve formula = .ok tree → tree.refs ≠ [] →
      ∃ failure, evaluateAlone formula = .failure "" failure := by
  rcases evaluateAlone_cases formula with ⟨v, hv, hreport⟩ | ⟨hnothing, failure, hreport⟩
  · refine ⟨fun text => ?_, fun h => absurd hv (h v), fun resolve tree hcompile hrefs => ?_⟩
    · rw [hreport]
      constructor
      · intro h
        have htext : v.asText ++ "\n" = text ++ "\n" := congrArg Report.output h
        exact ⟨v, hv, by simpa using htext⟩
      · rintro ⟨w, hw, rfl⟩
        rw [hv.unique hw]
    · exact absurd ((computes_iff hcompile Bindings.empty.context).mp hv).1 hrefs
  · refine ⟨fun text => ?_, fun _ => ⟨failure, hreport⟩, fun _ _ _ _ => ⟨failure, hreport⟩⟩
    rw [hreport]
    constructor
    · intro h
      have hcode : 1 = 0 := congrArg Report.code h
      cases hcode
    · rintro ⟨v, hv, -⟩
      exact absurd hv (hnothing v)

end LiveSheet
