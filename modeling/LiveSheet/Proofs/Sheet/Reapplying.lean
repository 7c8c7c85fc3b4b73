import LiveSheet.Proofs.Sheet.Glitchless
import LiveSheet.Proofs.Sheet.Recovery

namespace LiveSheet

open Relation

/-- What is told of a cell that is recomputed though nothing has changed: its value, if that is not
a number, as such a value is not equal to itself. -/
def Cell.echo (c : Cell) : List Change :=
  if c.value.isNaN then [⟨c.id, .valueChanged c.value⟩] else []

namespace Sheet

variable {settings : Settings} {s : Sheet} {id x : CellId} {c : Cell} {tree : Expr} {v : Value}
  {f g : Cell → Cell}

def echo (s : Sheet) (x : CellId) : List Change :=
  (s.cell? x).elim [] Cell.echo

theorem modify_congr (distinct : s.ids.Nodup) (same : ∀ c, s.cell? id = some c → f c = g c) :
    s.modify id f = s.modify id g := by
  unfold modify
  congr 1
  refine List.map_congr_left fun c hc => ?_
  by_cases hid : c.id = id
  · rw [if_pos hid, if_pos hid]
    exact same c (hid ▸ cell?_of_mem distinct hc)
  · rw [if_neg hid, if_neg hid]

theorem modify_eq_self (distinct : s.ids.Nodup) (same : ∀ c, s.cell? id = some c → f c = c) :
    s.modify id f = s := by
  rw [modify_congr distinct (g := fun c => c) same]
  simp [modify]

/-- A sheet in which everything is up to date and without error. -/
structure AtRest (s : Sheet) : Prop where
  distinct : s.ids.Nodup
  clean : ∀ x c, s.cell? x = some c → c.error = none
  shows : ∀ x c, s.cell? x = some c → c.isTable = false → ∃ tree v, s.Shows c tree v
  deep : ∀ x, s.collectDeep x = s.deepOf x

theorem AtRest.hasError (h : s.AtRest) (x : CellId) : s.hasError x = false := by
  cases hc : s.cell? x with
  | none => simp [Sheet.hasError, hc]
  | some c => simp [Sheet.hasError, hc, Cell.hasError, h.clean x c hc]

theorem Healthy.atRest (hs : s.Healthy settings) : s.AtRest where
  distinct := hs.kept.sound.indexed.nodup
  clean _ _ hc := hs.error hc
  shows _ _ hc formula := hs.shows hc formula
  deep x := by
    apply IdSet.ext
    intro y
    rw [mem_collectDeep_iff fun r _ => (hs.kept.sound.upToDate r).deep]
    exact ((hs.kept.sound.upToDate x).deep y).symm

theorem deepOf_regrown (s : Sheet) (id : CellId) (tree : Expr) :
    (s.modify id (Cell.regrown tree)).deepOf = s.deepOf := by
  funext x
  by_cases hx : x = id
  · rw [hx, deepOf, deepOf, cell?_modify_self (f := Cell.regrown tree) (fun _ => rfl)]
    cases s.cell? id <;> rfl
  · rw [deepOf, deepOf, cell?_regrown_ne s tree hx]

theorem wiring_regrown (s : Sheet) (id : CellId) (tree : Expr) :
    (s.modify id (Cell.regrown tree)).wiring = s.wiring :=
  wiring_modify (f := Cell.regrown tree) (fun _ => rfl) s id

/-- A cell may get the tree of its formula anew. -/
theorem AtRest.regrown (h : s.AtRest) (hc : s.cell? c.id = some c) (formula : c.isTable = false)
    (he : s.Formulates c tree v) : (s.modify c.id (Cell.regrown tree)).AtRest := by
  have hself := cell?_regrown_self hc tree
  have hother := fun x (hx : x ≠ c.id) => cell?_regrown_ne s tree hx
  refine ⟨?_, fun x d hd => ?_, fun x d hd table => ?_, fun x => ?_⟩
  · rw [ids_regrown]
    exact h.distinct
  · by_cases hx : x = c.id
    · subst x
      obtain rfl := Option.some.inj (hself.symm.trans hd)
      exact h.clean c.id c hc
    · exact h.clean x d (hother x hx ▸ hd)
  · have hfaces := sameFace_regrown hc formula tree
    by_cases hx : x = c.id
    · subst x
      obtain rfl := Option.some.inj (hself.symm.trans hd)
      exact ⟨tree, v, rfl, eval_of_sameFace (fun y _ => hfaces y) he.evaluates, he.same⟩
    · obtain ⟨old, w, hold⟩ := h.shows x d (hother x hx ▸ hd) table
      exact ⟨old, w, hold.grown, eval_of_sameFace (fun y _ => hfaces y) hold.evaluates, hold.same⟩
  · apply IdSet.ext
    intro y
    rw [deepOf_regrown, ← h.deep, mem_collectDeep, mem_collectDeep, deepOf_regrown,
      referencesOf_eq_of_wiring (wiring_regrown s c.id tree)]

theorem echo_regrown (s : Sheet) (id : CellId) (tree : Expr) :
    (s.modify id (Cell.regrown tree)).echo = s.echo := by
  funext x
  by_cases hx : x = id
  · rw [hx, echo, echo, cell?_modify_self (f := Cell.regrown tree) (fun _ => rfl)]
    cases s.cell? id <;> rfl
  · rw [echo, echo, cell?_regrown_ne s tree hx]

theorem affectedOrder_regrown (s : Sheet) (id : CellId) (tree : Expr) (roots : List CellId) :
    (s.modify id (Cell.regrown tree)).affectedOrder roots = s.affectedOrder roots := by
  rw [affectedOrder, affectedOrder, dependentsOf_eq_of_wiring (wiring_regrown s id tree),
    ids_eq_of_wiring (wiring_regrown s id tree)]

end Sheet

namespace Edit

open Sheet

variable {e : Edit} {id x : CellId} {c : Cell} {tree : Expr} {order : List CellId}

theorem setFormula_self (hc : e.sheet.cell? id = some c) : e.setFormula id c.formula = e := by
  simp [setFormula, hc]

theorem setReferences_self (hc : e.sheet.cell? id = some c) (distinct : e.sheet.ids.Nodup) :
    e.setReferences id c.references = e := by
  have hrelink : ∀ d ∈ e.sheet.cells, Cell.relink id c.references c.references d = d := by
    intro d hd
    simp only [Cell.relink, IdSet.mem_diff, and_not_self, if_false, ite_eq_right_iff]
    intro hid
    have hcell := cell?_of_mem distinct hd
    rw [hid, hc] at hcell
    rw [Option.some.inj hcell]
  simp only [setReferences, hc, List.map_congr_left hrelink, List.map_id']

theorem setDeep_atRest (h : e.sheet.AtRest) (id : CellId) :
    e.setDeep id (e.sheet.collectDeep id) = e := by
  have hsame : e.sheet.modify id (fun c => { c with deep := e.sheet.collectDeep id }) =
    e.sheet := by
    refine modify_eq_self h.distinct fun c hc => ?_
    rw [h.deep, deepOf_of_cell? hc]
  rw [setDeep, modify, hsame]

/-- Where everything is at rest, recomputing a cell changes nothing, and at most its
value is told. -/
theorem recompute_atRest (h : e.sheet.AtRest) (hc : e.sheet.cell? id = some c)
    (formula : c.isTable = false) :
    e.recompute id = { e with changes := e.changes ++ e.sheet.echo id } := by
  obtain rfl := cell?_id hc
  have hclean := h.clean c.id c hc
  obtain ⟨tree, v, hshows⟩ := h.shows c.id c hc formula
  have hbroken : c.deep.ids.find? e.sheet.hasError = none :=
    List.find?_eq_none.mpr fun y _ => by simp [h.hasError y]
  have hsane : c.isStructural = false := by simp [Cell.isStructural, hclean]
  have herror : e.setError c.id none = e := by simp [setError, hc, hclean]
  simp only [recompute, hc, hsane, hshows.grown, hbroken, hshows.evaluates, herror, setValue, echo,
    Cell.echo, Option.elim_some, hshows.same.beq_eq, Bool.false_eq_true, ↓reduceIte]
  cases hnan : c.value.isNaN with
  | false => simp
  | true =>
    obtain rfl : c.value = v := by
      rw [Value.isNaN_iff.mp hnan, Value.isNaN_iff.mp (hshows.same.isNaN_eq.symm.trans hnan)]
    have hsame : e.sheet.modify c.id (fun d => { d with value := c.value }) = e.sheet := by
      refine modify_eq_self h.distinct fun d hd => ?_
      rw [Option.some.inj (hc.symm.trans hd)]
    simp [modify, announce, hsame]

theorem refreshAll_atRest (h : e.sheet.AtRest)
    (formulas : ∀ x ∈ order, ∃ c, e.sheet.cell? x = some c ∧ c.isTable = false) :
    e.refreshAll order = { e with changes := e.changes ++ order.flatMap e.sheet.echo } := by
  induction order generalizing e with
  | nil => simp [refreshAll]
  | cons x rest ih =>
    obtain ⟨c, hc, formula⟩ := formulas x List.mem_cons_self
    have hstep : e.refresh x = { e with changes := e.changes ++ e.sheet.echo x } := by
      rw [refresh, setDeep_atRest h]
      exact recompute_atRest h hc formula
    have hrest := ih (e := e.refresh x) (by rw [hstep]; exact h) fun y hy => by
      rw [hstep]
      exact formulas y (List.mem_cons_of_mem x hy)
    rw [hstep] at hrest
    change (e.refresh x).refreshAll rest = _
    rw [hstep, hrest, List.flatMap_cons, List.append_assoc]

/-- Where everything is at rest, settling a cell on the references that it has, without closing a
cycle, changes nothing either. -/
theorem refreshed_atRest (h : e.sheet.AtRest) (hc : e.sheet.cell? id = some c)
    (formula : c.isTable = false) :
    e.refreshed id = { e with changes := e.changes ++ e.sheet.echo id } := by
  have hsane : c.isStructural = false := by simp [Cell.isStructural, h.clean id c hc]
  have hclear : e.clearStructural id = e := by simp [clearStructural, hc, hsane]
  rw [refreshed, setDeep_atRest h, hclear]
  exact recompute_atRest h hc formula

theorem planted_eq_regrown (distinct : e.sheet.ids.Nodup) (hc : e.sheet.cell? id = some c)
    (resolved : c.unresolved = []) (refs : tree.references = c.references) :
    e.planted id tree = e.modify id (Cell.regrown tree) := by
  let f : Cell → Cell := fun c => { c with content := .formula (some tree), unresolved := [] }
  have hmodify : e.modify id f = e.modify id (Cell.regrown tree) := by
    refine congrArg (Edit.mk · e.changes) (modify_congr distinct fun d hd => ?_)
    obtain rfl := Option.some.inj (hc.symm.trans hd)
    simp only [f, Cell.regrown, resolved]
  have hcell := cell?_regrown_self hc tree
  have hids := ids_regrown e.sheet id tree
  change (e.modify id f).setReferences id tree.references = _
  rw [hmodify, refs]
  exact setReferences_self (c := c.regrown tree) hcell (hids.symm ▸ distinct)

/-- Where everything is at rest, recomputing a cell and all that depends on it only tells what has
an echo. -/
theorem propagate_atRest (h : e.sheet.AtRest) (hc : e.sheet.cell? id = some c)
    (formula : c.isTable = false)
    (formulas : ∀ x ∈ e.sheet.below id, ∃ d, e.sheet.cell? x = some d ∧ d.isTable = false) :
    (e.refreshed id).propagate id =
      { e with changes := e.changes ++ (e.sheet.affectedOrder [id]).flatMap e.sheet.echo } := by
  have hrefreshed := refreshed_atRest h hc formula
  have hformulas : ∀ x ∈ e.sheet.below id,
      ∃ d, (e.refreshed id).sheet.cell? x = some d ∧ d.isTable = false := by
    rw [hrefreshed]
    exact formulas
  have hbelow := refreshAll_atRest (e := e.refreshed id) (by rw [hrefreshed]; exact h) hformulas
  rw [hrefreshed] at hbelow ⊢
  change refreshAll _ (e.sheet.below id) = _
  rw [hbelow, affectedOrder_singleton (mem_ids_iff.mpr ⟨c, hc⟩), List.flatMap_cons,
    List.append_assoc]

/-- A cell that is settled on a formula which refers to nothing shows its value. -/
theorem applyFormula_constant (sound : e.sheet.Sound) (hc : e.sheet.cell? id = some c)
    (formula : c.isTable = false) (hcompile : compile e.sheet.resolver c.formula = .ok tree)
    (closed : tree.cells = []) {v : Value} (heval : ∀ t : Sheet, tree.eval t.context = .ok v) :
    ∃ d, (e.applyFormula id).sheet.cell? id = some d ∧ d.formula = c.formula ∧
      d.isTable = false ∧ d.error = none ∧ d.value.Same v := by
  have hsound := applyFormula_sound_of_sound sound id
  cases applyFormula_applied (sound.soundBut id) hc formula with
  | failed _ h => cases hcompile.symm.trans h
  | circular tree' h closes =>
    obtain rfl : tree = tree' := Except.ok.inj (hcompile.symm.trans h)
    simp [closed] at closes
  | built tree' h d error sane here recomputed =>
    obtain rfl : tree = tree' := Except.ok.inj (hcompile.symm.trans h)
    have hrefs : d.references.ids = [] := by
      rw [Cell.references_eq_of_stance recomputed.stance_eq]
      exact List.eq_nil_iff_forall_not_mem.mpr fun y hy => by
        simpa [closed] using Expr.mem_references.mp hy
    refine ⟨d, here, ?_⟩
    cases recomputed with
    | structural hs => rw [Cell.isStructural, sane] at hs; cases hs
    | treeless ht => cases ht
    | below _ _ _ hbelow =>
      obtain ⟨y, hy, -⟩ := hbelow
      have hreach : y ∈ (e.applyFormula id).sheet.deepOf id := deepOf_of_cell? here ▸ hy
      exact absurd (((hsound.upToDate id).deep y).mp hreach) (not_reaches_of_references here hrefs)
    | failed _ tree' ht _ _ he =>
      obtain rfl : tree = tree' := Option.some.inj ht
      cases (heval _).symm.trans he
    | shown _ tree' ht _ w hw eq =>
      obtain rfl : tree = tree' := Option.some.inj ht
      obtain rfl : v = w := Except.ok.inj ((heval _).symm.trans hw)
      rw [eq]
      exact ⟨rfl, rfl, rfl, same_of_replaced _ _⟩

end Edit

namespace Sheet

variable {settings : Settings} {s : Sheet} {c : Cell}

/-- A cell without error that is settled on its own formula gets its tree anew. All that is told is
the values of it and its dependents that are not numbers. -/
theorem Healthy.reapplied (hs : s.Healthy settings) (inert : s.Inert) (hc : s.cell? c.id = some c)
    (formula : c.isTable = false) : ∃ tree, compile s.resolver c.formula = .ok tree ∧
      s.unchanged.applyFormula c.id =
        ⟨s.modify c.id (Cell.regrown tree), (s.affectedOrder [c.id]).flatMap s.echo⟩ := by
  obtain ⟨tree, v, he⟩ := hs.formulates hc formula
  obtain ⟨old, _, hold⟩ := hs.shows hc formula
  have hrest := hs.atRest.regrown hc formula he
  have hlinked := hs.kept.sound.linked
  have hdistinct := hs.kept.sound.indexed.nodup
  have hplanted : s.unchanged.planted c.id tree = (s.modify c.id (Cell.regrown tree)).unchanged :=
    Edit.planted_eq_regrown hdistinct hc (hs.inPhrase hc hold.grown).resolved (he.references_eq hc)
  have hapart : c.id ∉ (s.modify c.id (Cell.regrown tree)).unchanged.sheet.collectDeep c.id := by
    change c.id ∉ (s.modify c.id (Cell.regrown tree)).collectDeep c.id
    rw [hrest.deep, deepOf_regrown, (hs.kept.sound.upToDate c.id).deep]
    exact hlinked.acyclic c.id
  have horder := affectedOrder_regrown s c.id tree [c.id]
  have hformulas : ∀ x ∈ (s.modify c.id (Cell.regrown tree)).below c.id,
      ∃ d, (s.modify c.id (Cell.regrown tree)).cell? x = some d ∧ d.isTable = false := by
    intro x hx
    rw [below, horder] at hx
    have hreach := (hlinked.mem_below_iff hdistinct).mp hx
    obtain ⟨y, hy, -⟩ := TransGen.head'_iff.mp hreach
    obtain ⟨d, hd⟩ := mem_ids_iff.mp (mem_ids_of_mem_referencesOf hy)
    have hne : x ≠ c.id := fun he => hlinked.acyclic c.id (he ▸ hreach)
    exact ⟨d, (cell?_regrown_ne s tree hne).trans hd, inert.isTable hd hreach⟩
  refine ⟨tree, he.compiles, ?_⟩
  have hsettle : s.unchanged.applyFormula c.id = s.unchanged.settle c.id tree := by
    have hcompile : compile s.unchanged.sheet.resolver c.formula = .ok tree := he.compiles
    have hfound : s.unchanged.sheet.cell? c.id = some c := hc
    simp only [Edit.applyFormula, hfound, formula, hcompile, Bool.false_eq_true, ↓reduceIte]
  rw [hsettle, Edit.settle_eq, hplanted, if_neg hapart,
    Edit.propagate_atRest (e := (s.modify c.id (Cell.regrown tree)).unchanged) (c := c.regrown tree)
      hrest (cell?_regrown_self hc tree) rfl hformulas]
  simp only [Sheet.unchanged, horder, echo_regrown, List.nil_append]

end Sheet

namespace Subscriptions

variable {s : Subscriptions} {changes : List Change}

/-- Nobody is told of changes exactly if nobody watches the cells. -/
theorem deliver_eq_nil_iff : s.deliver changes = [] ↔
    ∀ change ∈ changes, ∀ handle, (change.cell, handle) ∉ s.live := by
  rw [deliver, List.flatMap_eq_nil_iff]
  refine forall₂_congr fun change _ => ?_
  rw [List.map_eq_nil_iff, List.eq_nil_iff_forall_not_mem]
  simp only [mem_handlesOf]

end Subscriptions

namespace Sheet

variable {s : Sheet} {c : Cell}

/-- Nobody is told that a cell is settled anew exactly if nobody watches a value that is not a
number in it or its dependents. -/
theorem Sound.deliver_echo_eq_nil_iff (hs : s.Sound) (hc : s.cell? c.id = some c)
    (subscriptions : Subscriptions) :
    subscriptions.deliver ((s.affectedOrder [c.id]).flatMap s.echo) = [] ↔
      ∀ d ∈ s.cells, d.id = c.id ∨ TransGen s.Refers d.id c.id → d.value.isNaN = true →
        ∀ handle, (d.id, handle) ∉ subscriptions.live := by
  have hdistinct := hs.indexed.nodup
  have haffected : ∀ x, x ∈ s.affectedOrder [c.id] ↔ x = c.id ∨ TransGen s.Refers x c.id := by
    intro x
    rw [affectedOrder_singleton (mem_ids_iff.mpr ⟨c, hc⟩), List.mem_cons,
      hs.linked.mem_below_iff hdistinct]
  rw [Subscriptions.deliver_eq_nil_iff]
  constructor
  · intro hsilent d hd hreach hnan
    refine hsilent ⟨d.id, .valueChanged d.value⟩ (List.mem_flatMap.mpr
      ⟨d.id, (haffected d.id).mpr hreach, ?_⟩)
    simp [echo, cell?_of_mem hdistinct hd, Cell.echo, hnan]
  · intro hsilent change hchange handle
    obtain ⟨x, hx, hecho⟩ := List.mem_flatMap.mp hchange
    cases hd : s.cell? x with
    | none => simp [echo, hd] at hecho
    | some d =>
      obtain ⟨hmem, rfl⟩ := mem_of_cell? hd
      simp only [echo, hd, Option.elim_some, Cell.echo, List.mem_ite_nil_right,
        List.mem_singleton] at hecho
      obtain ⟨hnan, rfl⟩ := hecho
      exact hsilent d hmem ((haffected d.id).mp hx) hnan handle

end Sheet

namespace Session

variable {settings : Settings} {s : Session} {c : Cell}

theorem perform_reapplied (hs : s.sheet.Healthy settings) (inert : s.sheet.Inert)
    (hc : s.sheet.cell? c.id = some c) (formula : c.isTable = false) :
    ∃ tree, compile s.sheet.resolver c.formula = .ok tree ∧
      s.perform (.setFormula c.id c.formula) =
        s.accept .done ⟨s.sheet.modify c.id (Cell.regrown tree),
          (s.sheet.affectedOrder [c.id]).flatMap s.sheet.echo⟩ := by
  obtain ⟨tree, hcompile, happlied⟩ := hs.reapplied inert hc formula
  refine ⟨tree, hcompile, ?_⟩
  rw [perform_setFormula hc formula c.formula, ← happlied,
    Edit.setFormula_self (e := s.sheet.unchanged) hc]

/-- Who watches a value that is not a number is told something when its cell gets the formula that
it has. -/
theorem perform_reapplied_tells (hs : s.sheet.Healthy settings) (inert : s.sheet.Inert)
    (hc : s.sheet.cell? c.id = some c) (formula : c.isTable = false) (nan : c.value.isNaN = true)
    {handle : Handle} (live : (c.id, handle) ∈ s.subscriptions.live) :
    (s.perform (.setFormula c.id c.formula)).delivered ≠ [] := by
  obtain ⟨tree, -, hperform⟩ := perform_reapplied hs inert hc formula
  rw [hperform]
  intro hsilent
  have hall := (hs.kept.sound.deliver_echo_eq_nil_iff hc s.subscriptions).mp hsilent
  exact hall c (Sheet.mem_of_cell? hc).1 (.inl rfl) nan handle live

/-- A cell that gets a formula which refers to nothing shows its value. -/
theorem perform_constant {id : CellId} {text : String} {tree : Expr} {v : Value}
    (hs : s.sheet.Sound) (hc : s.sheet.cell? id = some c) (formula : c.isTable = false)
    (compiles : ∀ resolver, compile resolver text = .ok tree) (closed : tree.cells = [])
    (evaluates : ∀ t : Sheet, tree.eval t.context = .ok v) :
    ∃ d, (s.perform (.setFormula id text)).session.sheet.cell? id = some d ∧ d.formula = text ∧
      d.isTable = false ∧ d.error = none ∧ d.value.Same v := by
  rw [perform_setFormula hc formula]
  exact Edit.applyFormula_constant (hs.setFormula id text) (Sheet.cell?_setFormula hc text) formula
    (compiles _) closed evaluates

theorem perform_setFormula_ids {id : CellId} (hc : s.sheet.cell? id = some c)
    (formula : c.isTable = false) (text : String) :
    (s.perform (.setFormula id text)).session.sheet.ids = s.sheet.ids := by
  rw [perform_setFormula hc formula]
  exact Sheet.ids_eq_of_roster
    ((Edit.applyFormula_roster _ id).trans (Sheet.roster_setFormula s.sheet id text))

/-- In a sheet without errors, after any operations, a cell that gets the formula that it has stays
as it is but for its tree, which is compiled anew, and so do all others. Those who watch the cell or
what depends on it are told its value once more if that is not a number, and nobody is told anything
else. -/
theorem run_reapplied (settings : Settings) (operations : List Operation) :
    let session := (new settings).run operations
    let s := session.sheet
    (∀ d ∈ s.cells, d.error = none) → ∀ c ∈ s.cells, c.isTable = false →
      let step := session.perform (.setFormula c.id c.formula)
      step.reply = .done ∧
      (∃ tree, compile s.resolver c.formula = .ok tree ∧ step.session.sheet =
        s.modify c.id fun c => { c with content := .formula (some tree) }) ∧
      step.delivered =
        session.subscriptions.deliver ((s.affectedOrder [c.id]).flatMap s.echo) ∧
      (step.delivered = [] ↔ ∀ d ∈ s.cells, d.id = c.id ∨ TransGen s.Refers d.id c.id →
        d.value.isNaN = true → ∀ handle, (d.id, handle) ∉ session.subscriptions.live) := by
  intro session s hclean c hc formula step
  have hs : s.Healthy settings := ⟨run_kept settings operations, hclean⟩
  have hcell := Sheet.cell?_of_mem hs.kept.sound.indexed.nodup hc
  obtain ⟨tree, hcompile, hperform⟩ :=
    perform_reapplied hs (run_inert settings operations) hcell formula
  have hstep : step = _ := hperform
  rw [hstep]
  exact ⟨rfl, ⟨tree, hcompile, rfl⟩, rfl,
    hs.kept.sound.deliver_echo_eq_nil_iff hcell session.subscriptions⟩

set_option maxRecDepth 20000 in
/-- Of two cells the first one, to which the second refers and which has got another name, gets its
formula anew. The second is watched. -/
theorem run_reapplied_renamed :
    let session := (new .default).run
      [.createCell (some "a") (some "true"), .createCell (some "b") (some "a"),
        .rename ⟨1⟩ "c", .subscribe ⟨2⟩]
    let s := session.sheet
    (∀ d ∈ s.cells, d.error = none) ∧ ∃ c ∈ s.cells, c.name = "c" ∧ c.isTable = false ∧
      let step := session.perform (.setFormula c.id c.formula)
      step.reply = .done ∧
      (∃ tree, compile s.resolver c.formula = .ok tree ∧ step.session.sheet =
        s.modify c.id fun c => { c with content := .formula (some tree) }) ∧
      step.delivered =
        session.subscriptions.deliver ((s.affectedOrder [c.id]).flatMap s.echo) ∧
      (step.delivered = [] ↔ ∀ d ∈ s.cells, d.id = c.id ∨ TransGen s.Refers d.id c.id →
        d.value.isNaN = true → ∀ handle, (d.id, handle) ∉ session.subscriptions.live) := by
  have hstate : ((new .default).run
      [.createCell (some "a") (some "true"), .createCell (some "b") (some "a"),
        .rename ⟨1⟩ "c", .subscribe ⟨2⟩]).sheet.cells.map
          (fun c => (c.name, c.isTable, c.error)) = [("c", false, none), ("b", false, none)] := by
    cbv
  have hcells : ∀ cells : List Cell, cells.map (fun c => (c.name, c.isTable, c.error)) =
      [("c", false, none), ("b", false, none)] →
        (∀ d ∈ cells, d.error = none) ∧ ∃ c ∈ cells, c.name = "c" ∧ c.isTable = false := by
    intro cells hmap
    have hclean : ∀ flags ∈ cells.map fun c => (c.name, c.isTable, c.error), flags.2.2 = none := by
      simp [hmap]
    obtain ⟨c, hc, hcell⟩ := List.mem_map.mp (hmap ▸ List.mem_cons_self)
    exact ⟨List.forall_mem_map.mp hclean, c, hc, congrArg (·.1) hcell, congrArg (·.2.1) hcell⟩
  intro session s
  obtain ⟨hclean, c, hc, hname, hformula⟩ := hcells s.cells hstate
  exact ⟨hclean, c, hc, hname, hformula, run_reapplied _ _ hclean c hc hformula⟩

set_option maxRecDepth 20000 in
/-- Who watches the only cell, which has the formula `0/0`, is told something when the cell gets the
same formula. -/
theorem run_reapplied_nan :
    let session := (new .default).run
      [.createCell (some "a") (some "true"), .setFormula ⟨1⟩ "0/0", .subscribe ⟨1⟩]
    (∀ d ∈ session.sheet.cells, d.error = none) ∧ ∃ c ∈ session.sheet.cells,
      c.formula = "0/0" ∧ (session.perform (.setFormula c.id c.formula)).delivered ≠ [] := by
  let tree : Expr := .binary .divide (.literal (.float 0)) (.literal (.float 0))
  have hcompile : ∀ resolver, compile resolver "0/0" = .ok tree := by
    intro resolver
    cbv
  have hstate : ((new .default).run [.createCell (some "a") (some "true")]).sheet.cells.map
      (fun c => (c.id, c.isTable)) = [(⟨1⟩, false)] := by
    cbv
  let before := (new .default).run [.createCell (some "a") (some "true")]
  let after := (before.perform (.setFormula ⟨1⟩ "0/0")).session
  have hsound : before.sheet.Sound := run_sound .default _
  obtain ⟨c, hcells, hcell⟩ := List.map_eq_singleton_iff.mp hstate
  have hids : before.sheet.ids = [⟨1⟩] := by
    change before.sheet.cells.map Cell.id = [⟨1⟩]
    rw [show before.sheet.cells = [c] from hcells]
    exact congrArg (fun p => [p.1]) hcell
  have hc : before.sheet.cell? ⟨1⟩ = some c := by
    rw [← show c.id = ⟨1⟩ from congrArg Prod.fst hcell]
    exact Sheet.cell?_of_mem hsound.indexed.nodup (hcells ▸ List.mem_singleton_self c)
  have hformula : c.isTable = false := congrArg Prod.snd hcell
  obtain ⟨d, hd, htext, htable, herror, hsame⟩ := perform_constant (s := before) hsound hc hformula
    hcompile rfl (v := .float .nan) fun _ => rfl
  have hkept : after.sheet.Kept .default :=
    run_kept .default [.createCell (some "a") (some "true"), .setFormula ⟨1⟩ "0/0"]
  have hinert : after.sheet.Inert :=
    run_inert .default [.createCell (some "a") (some "true"), .setFormula ⟨1⟩ "0/0"]
  have hclean : ∀ b ∈ after.sheet.cells, b.error = none := by
    intro b hb
    have hmem : b.id ∈ after.sheet.ids := List.mem_map_of_mem hb
    have hcell := Sheet.cell?_of_mem hkept.sound.indexed.nodup hb
    rw [perform_setFormula_ids hc hformula, hids, List.mem_singleton] at hmem
    rw [hmem, show after.sheet.cell? ⟨1⟩ = some d from hd] at hcell
    exact Option.some.inj hcell ▸ herror
  intro session
  have hsession : session = ⟨after.sheet, after.subscriptions.add ⟨1⟩⟩ := by
    change (after.perform (.subscribe ⟨1⟩)).session = _
    simp [perform_subscribe_eq, subscribe, Sheet.cell, show after.sheet.cell? ⟨1⟩ = some d from hd,
      keep]
  obtain ⟨hmem, hid⟩ := Sheet.mem_of_cell? hd
  have hlive : (d.id, after.subscriptions.lastHandle + 1) ∈ (after.subscriptions.add ⟨1⟩).live := by
    rw [hid]
    exact List.mem_append_right _ (List.mem_singleton_self _)
  have hs : after.sheet.Healthy .default := ⟨hkept, hclean⟩
  rw [hsession]
  exact ⟨hclean, d, hmem, htext, perform_reapplied_tells hs hinert (hid.symm ▸ hd) htable
    (hsame.isNaN_eq.trans (by decide)) hlive⟩

end Session

end LiveSheet
