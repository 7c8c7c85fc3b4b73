import LiveSheet.Proofs.Number.Zeros
import LiveSheet.Proofs.Sheet.Breakage
import LiveSheet.Proofs.Sheet.Flawless

namespace LiveSheet

open Relation

theorem Cell.eq_linkedAs_of_stance {c d : Cell} (h : d.stance = c.stance)
    (value : d.value = c.value) : d = { c.linkedAs d with error := d.error } := by
  cases c
  cases d
  simp only [stance, linkedAs, Cell.mk.injEq] at h value ⊢
  simp [h, value]

/-- The cell with another tree. -/
def Cell.regrown (tree : Expr) (c : Cell) : Cell :=
  { c with content := .formula (some tree) }

theorem Cell.isStructural_eq_of_stance {c d : Cell} (h : d.stance = c.stance) :
    d.isStructural = c.isStructural := by
  rw [Bool.eq_iff_iff, isStructural_iff, isStructural_iff,
    errorKind?_iff_of_stance h (.inl rfl), errorKind?_iff_of_stance h (.inr rfl)]

namespace Sheet

variable {s t u : Sheet} {id x : CellId} {b c d : Cell} {tree : Expr} {v : Value}

theorem cell?_regrown_self (hc : s.cell? id = some c) (tree : Expr) :
    (s.modify id (Cell.regrown tree)).cell? id = some (c.regrown tree) := by
  rw [cell?_modify_self (f := Cell.regrown tree) (fun _ => rfl), hc]
  rfl

theorem cell?_regrown_ne (s : Sheet) (tree : Expr) (hx : x ≠ id) :
    (s.modify id (Cell.regrown tree)).cell? x = s.cell? x :=
  cell?_modify_ne (f := Cell.regrown tree) (fun _ => rfl) s hx

theorem ids_regrown (s : Sheet) (id : CellId) (tree : Expr) :
    (s.modify id (Cell.regrown tree)).ids = s.ids :=
  ids_modify (f := Cell.regrown tree) (fun _ => rfl) s id

theorem sameFace_regrown (hc : s.cell? id = some c) (formula : c.isTable = false) (tree : Expr)
    (x : CellId) : s.SameFace (s.modify id (Cell.regrown tree)) x := by
  by_cases hx : x = id
  · subst x
    have hgrid : c.grid? = none := by simpa [Cell.isTable] using formula
    rw [SameFace, cell?_regrown_self hc, hc]
    exact .some ⟨rfl, rfl, hgrid⟩
  · exact .of_cell?_eq (cell?_regrown_ne s tree hx).symm

/-- Sheets are the same if they have the same cells under the same names. -/
theorem eq_of_cell? (distinct : s.ids.Nodup) (roster : t.roster = s.roster)
    (same : ∀ x ∈ s.ids, t.cell? x = s.cell? x) : t = s := by
  have hids : t.ids = s.ids := ids_eq_of_roster roster
  have hall : ∀ u : Sheet, u.ids.Nodup → u.cells.map some = u.ids.map u.cell? := by
    intro u hu
    rw [ids, List.map_map]
    exact List.map_congr_left fun c hc => (cell?_of_mem hu hc).symm
  have hcells : t.cells = s.cells := by
    apply List.map_injective_iff.mpr (Option.some_injective Cell)
    rw [hall t (hids ▸ distinct), hall s distinct, hids]
    exact List.map_congr_left same
  obtain ⟨settings, cells, names, lastId, lastName⟩ := t
  obtain rfl : cells = s.cells := hcells
  simp only [Sheet.roster, through, Sheet.mk.injEq] at roster
  obtain ⟨rfl, -, rfl, rfl, rfl⟩ := roster
  rfl

/-- A tree that has a value has it wherever its cells look the same. -/
theorem eval_of_sameFace (h : ∀ y ∈ tree.cells, s.SameFace t y)
    (hv : tree.eval s.context = .ok v) : tree.eval t.context = .ok v := by
  have hsame := tree.eval_sameUpTo (fun _ => trivial) fun ref hr =>
    (h ref.id (Expr.mem_cells_of_mem_refs hr)).agreeOn
  rw [hv] at hsame
  generalize tree.eval t.context = r at hsame
  cases hsame
  rfl

/-- A cell comes out of being recomputed as it was without error, if what it depends on looks as it
did then. -/
theorem Shows.recomputed {e : Edit} {error : Option CellError} (h : s.Shows c tree v)
    (clean : c.error = none) (sane : error.any CellError.isStructural = false)
    (recomputed : e.Recomputed { c with error := error } d)
    (faces : ∀ y ∈ tree.cells, s.SameFace e.sheet y)
    (clear : ∀ y ∈ c.deep, e.sheet.hasError y = false) : d = c := by
  have hclear : ¬e.sheet.BelowError { c with error := error } := by
    rintro ⟨y, hy, he⟩
    rw [clear y hy] at he
    cases he
  have heval := eval_of_sameFace faces h.evaluates
  cases recomputed with
  | structural hs => rw [Cell.isStructural, sane] at hs; cases hs
  | treeless ht => cases h.grown.symm.trans ht
  | below _ _ _ hb => exact absurd hb hclear
  | failed _ tree' ht _ _ he =>
    obtain rfl : tree = tree' := Option.some.inj (h.grown.symm.trans ht)
    cases heval.symm.trans he
  | shown _ tree' ht _ v' hv eq =>
    obtain rfl : tree = tree' := Option.some.inj (h.grown.symm.trans ht)
    obtain rfl : v = v' := Except.ok.inj (heval.symm.trans hv)
    dsimp only at eq
    rw [h.same.replaced, ← clean] at eq
    exact eq

/-- The tree of a cell without error names the cells that it refers to. -/
theorem Healthy.refers {settings : Settings} (hs : s.Healthy settings) (hc : s.cell? x = some c)
    (ht : c.tree? = some tree) {y : CellId} (hy : y ∈ tree.cells) : s.Refers x y :=
  hs.kept.sound.bound.refers hc ht hy (hs.kept.grounded x c tree hc (hs.error hc) ht y hy)

/-- A sheet that differs from another one in a cell, and otherwise only in what came of that: the
errors and transitive references of cells that depend on it, and back references. -/
structure Strays (s t : Sheet) (id : CellId) : Prop where
  roster : t.roster = s.roster
  values : ∀ x, (t.cell? x).map Cell.value = (s.cell? x).map Cell.value
  others : ∀ x, x ≠ id → s.SameStance t x
  apart : ∀ x, x ≠ id → ¬TransGen s.Refers x id → s.SameOwn t x

theorem Strays.refers_iff (h : s.Strays t id) (hx : x ≠ id) (y : CellId) :
    s.Refers x y ↔ t.Refers x y := by
  change y ∈ s.referencesOf x ↔ y ∈ t.referencesOf x
  rw [(h.others x hx).referencesOf]

theorem Strays.reaches_iff (h : s.Strays t id) (hx : x ≠ id) :
    TransGen s.Refers x id ↔ TransGen t.Refers x id :=
  transGen_target_iff (fun _ hy => h.refers_iff hy) hx

/-- A formula that closes no cycle in a sheet closes none where that has gone astray in its cell. -/
theorem Strays.not_closes (h : s.Strays t id) (hs : s.Linked) {r : CellId}
    (hr : s.Refers id r) : ¬ReflTransGen t.Refers r id := by
  have hne : r ≠ id := fun he => hs.acyclic.not_mem_self id (he ▸ hr)
  intro hback
  rcases reflTransGen_iff_eq_or_transGen.mp hback with heq | hback
  · exact hne heq.symm
  · exact hs.acyclic id (.head hr ((h.reaches_iff hne).mpr hback))

theorem Strays.trans (h : s.Strays t id) (h' : t.Strays u id) : s.Strays u id :=
  ⟨h'.roster.trans h.roster, fun x => (h'.values x).trans (h.values x),
    fun x hx => (h.others x hx).trans (h'.others x hx), fun x hx apart =>
      (h.apart x hx apart).trans (h'.apart x hx (mt (h.reaches_iff hx).mpr apart))⟩

theorem setFormula_strays (s : Sheet) (id : CellId) (formula : String) :
    s.Strays (s.unchanged.setFormula id formula).sheet id := by
  have htextless := Edit.setFormula_textless s.unchanged id formula
  have hvalue : ∀ (u : Sheet) (x : CellId),
      (u.cell? x).map Cell.value = (u.textless.cell? x).map Cell.value := by
    intro u x
    rw [textless, cell?_through (f := Cell.textless) (fun _ => rfl), Option.map_map]
    rfl
  refine ⟨roster_eq_of_textless htextless, fun x => ?_, fun x hx => ?_, fun x hx _ => ?_⟩
  · rw [hvalue, hvalue s, textless, htextless]
    rfl
  · exact .of_cell?_eq (Edit.setFormula_others s.unchanged formula hx)
  · exact .of_cell?_eq (Edit.setFormula_others s.unchanged formula hx)

theorem Strays.value_eq (h : s.Strays t id) (hc : s.cell? x = some c) (hd : t.cell? x = some d) :
    d.value = c.value := by
  have hvalue := h.values x
  rw [hc, hd] at hvalue
  exact Option.some.inj hvalue

end Sheet

namespace Edit

open Sheet

variable {e e' : Edit} {id x : CellId} {b c d : Cell} {tree : Expr}

/-- Only a cell that comes to show a value gets another one. -/
theorem Recomputed.value_eq (h : e.Recomputed c d)
    (broken : d.error = none → e.sheet.BelowError c) : d.value = c.value := by
  cases h with
  | structural _ h => rw [h]
  | treeless _ h => rw [h]
  | below _ _ _ _ _ h => rw [h]
  | failed _ _ _ _ _ _ h => rw [h]
  | shown _ _ _ clear _ _ h => exact absurd (broken (by rw [h])) clear

theorem Applied.value_self (h : e.Applied id c e') (hd : e'.sheet.cell? id = some d)
    (broken : d.error ≠ none) : d.value = c.value := by
  cases h with
  | failed _ _ here =>
    obtain rfl := Option.some.inj (here.symm.trans hd)
    rfl
  | circular _ _ _ d' _ here eq =>
    obtain rfl := Option.some.inj (here.symm.trans hd)
    rw [eq]
    rfl
  | built _ _ d' _ _ here recomputed =>
    obtain rfl := Option.some.inj (here.symm.trans hd)
    exact recomputed.value_eq fun he => absurd he broken

theorem Applied.value_below (h : e.Applied id c e') (reach : TransGen e.sheet.Refers x id)
    (hb : e.sheet.cell? x = some b) (hd : e'.sheet.cell? x = some d)
    (broken : e'.sheet.BelowError d) : d.value = b.value := by
  have hrecomputed : ∀ d', e'.sheet.cell? x = some d' → e'.Recomputed (b.linkedAs d') d' →
      d.value = b.value := by
    intro d' hd' hrecomputed
    obtain rfl := Option.some.inj (hd.symm.trans hd')
    exact hrecomputed.value_eq fun _ => broken
  cases h with
  | failed _ _ _ below =>
    obtain ⟨d', hd', h⟩ := below x b reach hb
    exact hrecomputed d' hd' h
  | circular _ _ _ _ _ _ _ below =>
    obtain ⟨d', hd', h⟩ := below x b reach hb
    obtain rfl := Option.some.inj (hd.symm.trans hd')
    rw [h]
    rfl
  | built _ _ _ _ _ _ _ below =>
    obtain ⟨d', hd', h⟩ := below x b reach hb
    exact hrecomputed d' hd' h

section Broken

variable (sound : e.sheet.Sound) (hc : e.sheet.cell? id = some c) (formula : c.isTable = false)
  (broken : (e.applyFormula id).sheet.hasError id = true)
include sound hc formula broken

/-- Settling a cell changes no value if it leaves that cell in error. -/
theorem applyFormula_value_of_broken (hb : e.sheet.cell? x = some b)
    (hd : (e.applyFormula id).sheet.cell? x = some d) : d.value = b.value := by
  have happlied := applyFormula_applied (sound.soundBut id) hc formula
  by_cases hx : x = id
  · subst x
    obtain rfl := Option.some.inj (hc.symm.trans hb)
    apply happlied.value_self hd
    intro he
    simp [hasError, hd, Cell.hasError, he] at broken
  by_cases hreach : TransGen e.sheet.Refers x id
  · refine happlied.value_below hreach hb hd ⟨id, ?_, broken⟩
    rw [((applyFormula_sound_of_sound sound id).upToDate x).deep.mem_deep hd]
    exact (transGen_target_iff (fun _ hy z => applyFormula_refers e hy z) hx).mp hreach
  · obtain ⟨b', hb', hown⟩ := (applyFormula_apart (sound.soundBut id) hx hreach).cell? hd
    obtain rfl := Option.some.inj (hb.symm.trans hb')
    exact (congrArg Cell.value hown :)

/-- A cell that is left in error leads astray only what depends on it. -/
theorem applyFormula_strays : e.sheet.Strays (e.applyFormula id).sheet id := by
  refine ⟨applyFormula_roster e id, fun x => ?_, fun x hx => applyFormula_others e hx,
    fun x hx apart => applyFormula_apart (sound.soundBut id) hx apart⟩
  cases hd : (e.applyFormula id).sheet.cell? x with
  | none =>
    have hids := ids_eq_of_roster (applyFormula_roster e id)
    rw [not_mem_ids_iff.mp (hids ▸ not_mem_ids_iff.mpr hd)]
  | some d =>
    obtain ⟨b, hb⟩ : ∃ b, e.sheet.cell? x = some b := by
      rw [← mem_ids_iff, ← ids_eq_of_roster (applyFormula_roster e id), mem_ids_iff]
      exact ⟨d, hd⟩
    rw [hb, Option.map_some, Option.map_some,
      applyFormula_value_of_broken sound hc formula broken hb hd]

end Broken

section Healing

variable {settings : Settings} {s : Sheet} {v : Value}

/-- A cell that depends on the one that strayed is as it was, once what it depends on looks so. -/
theorem healed_below (hs : s.Healthy settings) (inert : s.Inert) (strays : s.Strays e.sheet id)
    (sound : e'.sheet.Sound) (refers : e'.sheet.Refers = s.Refers)
    (below : ∀ x b, TransGen e.sheet.Refers x id → e.sheet.cell? x = some b →
      ∃ d, e'.sheet.cell? x = some d ∧ e'.Recomputed (b.linkedAs d) d)
    (hx : x ≠ id) (hreach : TransGen s.Refers x id) (hb : s.cell? x = some b)
    (faces : ∀ y, TransGen s.Refers x y → s.SameFace e'.sheet y) :
    e'.sheet.cell? x = some b := by
  obtain ⟨b', hb', hstance⟩ := (strays.others x hx).symm.cell? hb
  obtain ⟨d, hd, hrecomputed⟩ := below x b' ((strays.reaches_iff hx).mp hreach) hb'
  have hlinked : b.linkedAs d = b := hs.kept.sound.linkedAs_eq sound refers hb hd
  have hbefore : b'.linkedAs d = { b with error := b'.error } :=
    (congrArg (Cell.linkedAs · d)
      (Cell.eq_linkedAs_of_stance hstance.symm (strays.value_eq hb hb'))).trans
      (congrArg (fun c : Cell => { c with error := b'.error }) hlinked)
  have hsane : b'.isStructural = false := by
    rw [Cell.isStructural_eq_of_stance hstance.symm, Cell.isStructural, hs.error hb]
    rfl
  rw [hbefore] at hrecomputed
  obtain ⟨tree, v, hshows⟩ := hs.shows hb (inert.isTable hb hreach)
  obtain rfl : d = b := by
    refine hshows.recomputed (hs.error hb) hsane hrecomputed (fun y hy => ?_) fun y hy => ?_
    · exact faces y (.single (hs.refers hb hshows.grown hy))
    · have hreach := ((hs.kept.sound.upToDate x).deep.mem_deep hb).mp hy
      rw [← (faces y hreach).hasError_eq, hs.hasError]
  exact hd

/-- A cell with its formula back is as it was but for its tree, once what it depends on looks so. -/
theorem healed_self (hs : s.Healthy settings) (strays : s.Strays e.sheet id)
    (sound : e'.sheet.Sound) (refers : e'.sheet.Refers = s.Refers) (hc : s.cell? id = some c)
    (formula : c.isTable = false) (he : s.Formulates c tree v) (hb : e.sheet.cell? id = some b)
    (text : b.formula = c.formula) (hd : e'.sheet.cell? id = some d) {error : Option CellError}
    (sane : error.any CellError.isStructural = false)
    (recomputed : e'.Recomputed { b.linkedAs d with
      content := .formula (some tree), unresolved := [], references := tree.references,
      error := error } d)
    (faces : ∀ y, TransGen s.Refers id y → s.SameFace e'.sheet y) :
    e'.sheet.cell? id = some (c.regrown tree) := by
  obtain rfl := cell?_id hc
  have hlinked : c.linkedAs d = c := hs.kept.sound.linkedAs_eq sound refers hc hd
  have hdeep : d.deep = c.deep := (congrArg Cell.deep hlinked :)
  have hback : d.referencedBy = c.referencedBy := (congrArg Cell.referencedBy hlinked :)
  obtain ⟨b', hb', hlabel⟩ := cell?_of_through_eq Cell.label (fun _ => rfl) strays.roster.symm hc
  obtain rfl := Option.some.inj (hb.symm.trans hb')
  have hid : b.id = c.id := (congrArg Cell.id hlabel :)
  have hname : b.name = c.name := (congrArg Cell.name hlabel :)
  have hvalue : b.value = c.value := strays.value_eq hc hb
  obtain ⟨old, _, hold⟩ := hs.shows hc formula
  have hresolved : c.unresolved = [] := (hs.inPhrase hc hold.grown).resolved
  have hrefs := he.references_eq hc
  have hbefore : ({ b.linkedAs d with
      content := .formula (some tree), unresolved := [], references := tree.references,
      error := error } : Cell) = { c.regrown tree with error := error } := by
    simp only [Cell.linkedAs, Cell.regrown, hid, hname, text, hvalue, hdeep, hback, hresolved,
      hrefs]
  rw [hbefore] at recomputed
  have hshows : s.Shows (c.regrown tree) tree v := ⟨rfl, he.evaluates, he.same⟩
  have hclean : (c.regrown tree).error = none := (hs.error hc :)
  obtain rfl : d = c.regrown tree := by
    refine hshows.recomputed hclean sane recomputed (fun y hy => ?_) fun y hy => ?_
    · exact faces y (.single ((he.refers y).mpr hy))
    · have hreach := ((hs.kept.sound.upToDate c.id).deep.mem_deep hc).mp hy
      rw [← (faces y hreach).hasError_eq, hs.hasError]
  exact hd

/-- Once a cell is settled on the formula that it had, all cells are as they were, but
for its tree. -/
theorem healed_cells (hs : s.Healthy settings) (inert : s.Inert) (strays : s.Strays e.sheet id)
    (sound : e'.sheet.Sound) (refers : e'.sheet.Refers = s.Refers)
    (here : s.cell? id = some c) (formula : c.isTable = false)
    (self : (∀ y, TransGen s.Refers id y → s.SameFace e'.sheet y) →
      e'.sheet.cell? id = some (c.regrown tree))
    (below : ∀ x b, TransGen e.sheet.Refers x id → e.sheet.cell? x = some b →
      ∃ d, e'.sheet.cell? x = some d ∧ e'.Recomputed (b.linkedAs d) d)
    (apart : ∀ x, x ≠ id → ¬TransGen s.Refers x id → s.SameOwn e'.sheet x) (hx : x ∈ s.ids) :
    e'.sheet.cell? x = (s.modify id (Cell.regrown tree)).cell? x := by
  have hlinked := hs.kept.sound.linked
  refine hlinked.wellFoundedOn.induction hx
    (P := fun x => e'.sheet.cell? x = (s.modify id (Cell.regrown tree)).cell? x) ?_
  intro x hx ih
  have hfaces : ∀ y, TransGen s.Refers x y → s.SameFace e'.sheet y := by
    intro y hy
    unfold SameFace
    rw [ih y (hlinked.mem_ids_of_transGen hy) hy]
    exact sameFace_regrown here formula tree y
  obtain ⟨b, hb⟩ := mem_ids_iff.mp hx
  by_cases hid : x = id
  · subst x
    rw [cell?_regrown_self here]
    exact self hfaces
  · rw [cell?_regrown_ne s tree hid, hb]
    by_cases hreach : TransGen s.Refers x id
    · exact healed_below hs inert strays sound refers below hid hreach hb hfaces
    · exact hs.kept.sound.cell?_eq_of_own sound refers (apart x hid hreach) hb

/-- A cell that gets its formula back brings the sheet back, but for the tree of the cell. -/
theorem applyFormula_heals (hs : s.Healthy settings) (inert : s.Inert) (sound : e.sheet.Sound)
    (strays : s.Strays e.sheet id) (hc : s.cell? id = some c) (formula : c.isTable = false)
    (hb : e.sheet.cell? id = some b) (text : b.formula = c.formula) (settles : b.isTable = false) :
    ∃ tree, compile s.resolver c.formula = .ok tree ∧
      (e.applyFormula id).sheet = s.modify id (Cell.regrown tree) := by
  obtain rfl := cell?_id hc
  obtain ⟨tree, v, he⟩ := hs.formulates hc formula
  have hsound := applyFormula_sound_of_sound sound c.id
  have hcompile : compile e.sheet.resolver b.formula = .ok tree := by
    rw [text, resolver_eq_of_roster strays.roster]
    exact he.compiles
  refine ⟨tree, he.compiles, ?_⟩
  cases applyFormula_applied (sound.soundBut c.id) hb settles with
  | failed _ h => cases hcompile.symm.trans h
  | circular tree' h closes =>
    obtain rfl : tree = tree' := Except.ok.inj (hcompile.symm.trans h)
    obtain ⟨r, hr, hback⟩ := closes
    exact absurd hback (strays.not_closes hs.kept.sound.linked ((he.refers r).mpr hr))
  | built tree' h d error sane here recomputed below =>
    obtain rfl : tree = tree' := Except.ok.inj (hcompile.symm.trans h)
    have hrefers : (e.applyFormula c.id).sheet.Refers = s.Refers := by
      funext x y
      apply propext
      by_cases hx : x = c.id
      · subst x
        rw [he.refers, Refers, Leads, referencesOf_of_cell? here,
          Cell.references_eq_of_stance recomputed.stance_eq]
        exact Expr.mem_references
      · exact ((strays.refers_iff hx y).trans (applyFormula_refers e hx y)).symm
    have hids := ids_regrown s c.id tree
    apply eq_of_cell? (hids ▸ hs.kept.sound.indexed.nodup)
    · exact ((applyFormula_roster e c.id).trans strays.roster).trans
        (through_modify (f := Cell.regrown tree) (fun _ => rfl) s c.id).symm
    · rw [hids]
      intro x hx
      refine healed_cells hs inert strays hsound hrefers hc formula ?_ below ?_ hx
      · exact healed_self hs strays hsound hrefers hc formula he hb text here sane recomputed
      · intro x hne apart
        exact (strays.apart x hne apart).trans (applyFormula_apart (sound.soundBut c.id) hne
          (mt (strays.reaches_iff hne).mpr apart))

end Healing

end Edit

namespace Sheet

variable {settings : Settings} {s t : Sheet} {id : CellId} {c b : Cell}

/-- A cell that led the sheet astray brings it back with its old formula. -/
theorem Healthy.recovers (hs : s.Healthy settings) (inert : s.Inert) (sound : t.Sound)
    (strays : s.Strays t id) (hc : s.cell? id = some c) (formula : c.isTable = false)
    (hb : t.cell? id = some b) (settles : b.isTable = false) :
    ∃ tree, compile s.resolver c.formula = .ok tree ∧
      ((t.unchanged.setFormula id c.formula).applyFormula id).sheet =
        s.modify id (Cell.regrown tree) :=
  Edit.applyFormula_heals hs inert
    (sound.setFormula id c.formula) (strays.trans (t.setFormula_strays id c.formula)) hc formula
    (cell?_setFormula hb c.formula) rfl settles

end Sheet

namespace Session

/-- In a sheet without errors, after any operations, a cell that comes to be in error with a new
formula and then gets its old one back has the sheet as it was, but for its tree, which is compiled
anew. -/
theorem run_recovers (settings : Settings) (operations : List Operation) :
    let session := (new settings).run operations
    let s := session.sheet
    (∀ d ∈ s.cells, d.error = none) → ∀ c ∈ s.cells, c.isTable = false → ∀ formula,
      let broken := (session.perform (.setFormula c.id formula)).session
      broken.sheet.hasError c.id = true →
      let step := broken.perform (.setFormula c.id c.formula)
      let t := step.session.sheet
      step.reply = .done ∧ (∀ d ∈ t.cells, d.error = none) ∧
      ∃ tree, compile s.resolver c.formula = .ok tree ∧
        t = s.modify c.id fun c => { c with content := .formula (some tree) } := by
  intro session s hclean c hc hformula formula broken hbroken step t
  have hs : s.Healthy settings := ⟨run_kept settings operations, hclean⟩
  have hcell := Sheet.cell?_of_mem hs.kept.sound.indexed.nodup hc
  let e := s.unchanged.setFormula c.id formula
  have hsound : e.sheet.Sound := hs.kept.sound.setFormula c.id formula
  have hbefore := Sheet.cell?_setFormula hcell formula
  have hsheet : broken.sheet = (e.applyFormula c.id).sheet := by
    rw [show broken = _ from congrArg Step.session (perform_setFormula hcell hformula formula)]
    rfl
  obtain ⟨b, hb, houtcome⟩ := Edit.applyFormula_outcome hbefore hformula
  rw [hsheet] at hbroken
  have hstrays := (s.setFormula_strays c.id formula).trans
    (Edit.applyFormula_strays hsound hbefore hformula hbroken)
  rw [← hsheet] at hb hstrays
  have hperform := perform_setFormula hb houtcome.isTable c.formula
  obtain ⟨tree, hcompile, ht⟩ := hs.recovers (run_inert settings operations)
    (hsheet ▸ Edit.applyFormula_sound_of_sound hsound c.id) hstrays hcell hformula hb
      houtcome.isTable
  have hfinal : t = s.modify c.id (Cell.regrown tree) := by
    rw [← ht, show t = _ from congrArg (·.session.sheet) hperform]
    rfl
  refine ⟨congrArg Step.reply hperform, fun d hd => ?_, tree, hcompile, hfinal⟩
  rw [hfinal] at hd
  obtain ⟨a, ha, rfl⟩ := List.mem_map.mp hd
  split
  next => exact hclean a ha
  next => exact hclean a ha

set_option maxRecDepth 20000 in
/-- The first of two cells closes a cycle with the second one, and then does so no longer. -/
theorem run_recovers_mutual :
    let session := (new .default).run
      [.createCell (some "a") (some "true"), .createCell (some "b") (some "a")]
    let s := session.sheet
    (∀ d ∈ s.cells, d.error = none) ∧ ∃ c ∈ s.cells, c.isTable = false ∧
      let broken := (session.perform (.setFormula c.id "b")).session
      broken.sheet.hasError c.id = true ∧
      let step := broken.perform (.setFormula c.id c.formula)
      let t := step.session.sheet
      step.reply = .done ∧ (∀ d ∈ t.cells, d.error = none) ∧
      ∃ tree, compile s.resolver c.formula = .ok tree ∧
        t = s.modify c.id fun c => { c with content := .formula (some tree) } := by
  have hstate :
      let session := (new .default).run
        [.createCell (some "a") (some "true"), .createCell (some "b") (some "a")]
      session.sheet.cells.map (fun c => (c.id, c.isTable, c.error)) =
          [(⟨1⟩, false, none), (⟨2⟩, false, none)] ∧
        (session.perform (.setFormula ⟨1⟩ "b")).session.sheet.hasError ⟨1⟩ = true := by
    cbv
  have hcells : ∀ cells : List Cell, cells.map (fun c => (c.id, c.isTable, c.error)) =
      [(⟨1⟩, false, none), (⟨2⟩, false, none)] →
        (∀ d ∈ cells, d.error = none) ∧ ∃ c ∈ cells, c.id = ⟨1⟩ ∧ c.isTable = false := by
    intro cells hmap
    have hclean : ∀ flags ∈ cells.map fun c => (c.id, c.isTable, c.error), flags.2.2 = none := by
      simp [hmap]
    obtain ⟨c, hc, hcell⟩ := List.mem_map.mp (hmap ▸ List.mem_cons_self)
    exact ⟨List.forall_mem_map.mp hclean, c, hc, congrArg (·.1) hcell, congrArg (·.2.1) hcell⟩
  obtain ⟨hmap, hbroken⟩ := hstate
  intro session s
  obtain ⟨hclean, c, hc, hid, hformula⟩ := hcells s.cells hmap
  rw [← hid] at hbroken
  exact ⟨hclean, c, hc, hformula, hbroken, run_recovers _ _ hclean c hc hformula "b" hbroken⟩

end Session

end LiveSheet
