import LiveSheet.Proofs.Sheet.Recovery

namespace LiveSheet

open Relation

section Replacing

variable {old new x y : CellId}

/-- The cell, or `new` if it is `old`. -/
def CellId.replace (x old new : CellId) : CellId :=
  if x = old then new else x

theorem CellId.replace_self (old new : CellId) : old.replace old new = new :=
  if_pos rfl

theorem CellId.replace_of_ne (h : x ≠ old) : x.replace old new = x :=
  if_neg h

/-- A cell that was not there before gives its place back. -/
theorem CellId.replace_replace (h : x ≠ new) : (x.replace old new).replace new old = x := by
  by_cases hx : x = old
  · rw [hx, replace_self, replace_self]
  · rw [replace_of_ne hx, replace_of_ne h]

def CellRef.replace (old new : CellId) (ref : CellRef) : CellRef :=
  ⟨ref.id.replace old new, ref.name⟩

theorem Expr.cells_replace (old new : CellId) (e : Expr) :
    (e.mapRefs (CellRef.replace old new)).cells = e.cells.map (·.replace old new) := by
  rw [cells_eq, refs_mapRefs, cells_eq, List.map_map, List.map_map]
  rfl

theorem Expr.anonymous_replace (old new : CellId) (e : Expr) :
    (e.mapRefs (CellRef.replace old new)).anonymous =
      e.anonymous.mapRefs (CellRef.replace old new) := by
  rw [anonymous, anonymous, mapRefs_mapRefs, mapRefs_mapRefs]
  rfl

/-- The set with `new` for `old`. -/
def IdSet.replace (old new : CellId) (set : IdSet) : IdSet :=
  .ofList (set.ids.map (·.replace old new))

theorem IdSet.mem_replace {set : IdSet} :
    y ∈ set.replace old new ↔ ∃ x ∈ set, x.replace old new = y := by
  rw [replace, mem_ofList, List.mem_map]
  rfl

theorem IdSet.eq_replace {a b : IdSet} (gone : old ∉ b)
    (forth : ∀ x ∈ a, x.replace old new ∈ b) (back : ∀ y ∈ b, y.replace new old ∈ a) :
    b = a.replace old new := by
  apply ext
  intro y
  rw [mem_replace]
  constructor
  · exact fun hy => ⟨_, back y hy, CellId.replace_replace fun he => gone (he ▸ hy)⟩
  · rintro ⟨x, hx, rfl⟩
    exact forth x hx

end Replacing

/-- The cell `d` has the name, the formula and the links of the cell `c`, with `new` for `old`, and
its tree up to the names in that. -/
structure Cell.Moved (old new : CellId) (c d : Cell) : Prop where
  name : d.name = c.name
  formula : d.formula = c.formula
  tree : d.tree?.map Expr.anonymous =
    c.tree?.map fun tree => (tree.mapRefs (CellRef.replace old new)).anonymous
  references : d.references = c.references.replace old new
  deep : d.deep = c.deep.replace old new
  referencedBy : d.referencedBy = c.referencedBy.replace old new

namespace Sheet

variable {s t u : Sheet} {id x y : CellId} {c d gone : Cell} {formula : String} {tree : Expr}

/-- The sheet that remains of another one without a cell, once what depended on that is settled. -/
structure Loses (s : Sheet) (gone : Cell) (t : Sheet) : Prop where
  roster : t.roster = (s.removeCell gone).roster
  stances : ∀ x, (s.removeCell gone).SameStance t x

theorem deleteCell_loses {e : Edit} (hg : s.cell? gone.id = some gone)
    (h : s.deleteCell gone.id = .ok e) : s.Loses gone e.sheet := by
  obtain ⟨c, hid, hc, rfl⟩ := deleteCell_eq_ok h
  rw [hid, hg] at hc
  obtain rfl := Option.some.inj hc
  exact ⟨roster_eq_of_outline (Edit.outline_refreshAll _ _), Edit.refreshAll_sameStance _ _⟩

section Loses

variable (h : s.Loses gone t)
include h

theorem Loses.ids_eq (indexed : s.Indexed) : t.ids = s.ids.erase gone.id := by
  rw [ids_eq_of_roster h.roster, ids_removeCell, indexed.nodup.erase_eq_filter]

theorem Loses.not_mem_ids : gone.id ∉ t.ids := by
  rw [ids_eq_of_roster h.roster, mem_ids_removeCell]
  exact fun hm => hm.2 rfl

theorem Loses.nextId_not_mem (indexed : s.Indexed) : t.nextId ∉ s.ids := by
  have hlast : t.lastId = s.lastId := (congrArg Sheet.lastId h.roster :)
  rw [nextId, hlast]
  exact indexed.nextId_not_mem

theorem Loses.idOf? (name : String) :
    t.idOf? name = if name = gone.name then none else s.idOf? name := by
  rw [idOf?_eq_of_roster h.roster, idOf?_removeCell]

theorem Loses.cell? (hd : t.cell? x = some d) :
    ∃ c, s.cell? x = some c ∧ d.stance = (Cell.detach gone c).stance := by
  obtain ⟨c', hc', hstance⟩ := (h.stances x).cell? hd
  obtain ⟨-, c, hc, rfl⟩ := cell?_of_removeCell hc'
  exact ⟨c, hc, hstance⟩

theorem Loses.refers (hs : s.Sound) (hg : s.cell? gone.id = some gone) (hr : t.Refers x y) :
    s.Refers x y := by
  change y ∈ t.referencesOf x at hr
  rw [(h.stances x).referencesOf] at hr
  exact ((mem_referencesOf_removeCell hs hg).mp hr).1

end Loses

/-- No cell has a cell on record that is not there. -/
theorem Sound.not_mem_links (hs : s.Sound) (hc : s.cell? x = some c) (hy : y ∉ s.ids) :
    y ∉ c.references ∧ y ∉ c.deep ∧ y ∉ c.referencedBy := by
  rw [mem_references_iff hc, (hs.upToDate x).deep.mem_deep hc,
    hs.linked.inverse.mem_referencedBy hc]
  exact ⟨mt hs.linked.mem_ids hy, mt hs.linked.mem_ids_of_transGen hy,
    mt mem_ids_of_mem_referencesOf hy⟩

/-- The sheet `t` is on the way to having the cell `new` where `s` has `old`: the names already
stand for the right cells, no formula has been found at fault, and no cell refers to one to which it
should not refer. -/
structure Mends (s : Sheet) (old new : CellId) (t : Sheet) : Prop where
  names : ∀ name y, s.idOf? name = some y → t.idOf? name = some (y.replace old new)
  cells : ∀ x d, t.cell? x = some d → ∃ c, s.cell? (x.replace new old) = some c ∧
    d.formula = c.formula ∧ d.isTable = c.isTable ∧ d.isStructural = false
  refers : ∀ x y, t.Refers x y → s.Refers (x.replace new old) (y.replace new old)

variable {old new : CellId}

theorem Mends.compiles (h : s.Mends old new t) (he : compile s.resolver formula = .ok tree) :
    compile t.resolver formula = .ok (tree.mapRefs (CellRef.replace old new)) :=
  compile_mapRefs he fun ref hr => ⟨rfl, h.names ref.name ref.id (resolve_of_mem_refs he hr).2⟩

/-- A way back to a cell from one that its formula names would have been one before. -/
theorem Mends.not_closes (h : s.Mends old new t) (linked : s.Linked) (fresh : new ∉ s.ids)
    (hr : s.Refers (x.replace new old) y) : ¬ReflTransGen t.Refers (y.replace old new) x := by
  intro hback
  have hlift : ReflTransGen s.Refers ((y.replace old new).replace new old) (x.replace new old) :=
    hback.lift (·.replace new old) h.refers
  have hne : y ≠ new := fun he => fresh (he ▸ linked.mem_ids hr)
  rw [CellId.replace_replace hne] at hlift
  exact linked.acyclic _ (.head' hr hlift)

/-- A cell is settled if it comes out like the one whose place it has. -/
theorem Mends.settle (h : s.Mends old new t) (roster : u.roster = t.roster)
    (others : ∀ x, x ≠ id → t.SameStance u x) (hd : u.cell? id = some d)
    (here : ∃ c, s.cell? (id.replace new old) = some c ∧
      d.formula = c.formula ∧ d.isTable = c.isTable ∧ d.isStructural = false)
    (refers : ∀ y ∈ d.references, s.Refers (id.replace new old) (y.replace new old)) :
    s.Mends old new u := by
  refine ⟨fun name y hy => ?_, fun x d' hd' => ?_, fun x y hr => ?_⟩
  · rw [idOf?_eq_of_roster roster]
    exact h.names name y hy
  · by_cases hx : x = id
    · subst x
      obtain rfl := Option.some.inj (hd.symm.trans hd')
      exact here
    · obtain ⟨d, hd, hstance⟩ := (others x hx).cell? hd'
      rw [Cell.formula_eq_of_stance hstance, Cell.isTable_eq_of_stance hstance,
        Cell.isStructural_eq_of_stance hstance]
      exact h.cells x d hd
  · by_cases hx : x = id
    · subst x
      exact refers y ((mem_references_iff hd).mpr hr)
    · change y ∈ u.referencesOf x at hr
      rw [(others x hx).referencesOf] at hr
      exact h.refers x y hr

end Sheet

namespace Edit

open Sheet

variable {settings : Settings} {s : Sheet} {e : Edit} {old new id : CellId}

/-- Settling a cell on its formula finds it not at fault, and gives it the references it should
have. -/
theorem applyFormula_mends (hs : s.Healthy settings) (fresh : new ∉ s.ids)
    (h : s.Mends old new e.sheet) (sound : e.sheet.SoundBut id) :
    s.Mends old new (e.applyFormula id).sheet := by
  rcases applyFormula_cases e id with ⟨c, hc, formula⟩ | ⟨hstay, -⟩
  · obtain ⟨b, hb, htext, htable, -⟩ := h.cells id c hc
    have hid := cell?_id hb
    obtain ⟨tree, v, he⟩ := hs.formulates (hid ▸ hb) (htable ▸ formula)
    have hcompile : compile e.sheet.resolver c.formula = .ok _ := htext ▸ h.compiles he.compiles
    have hrefers : ∀ y ∈ tree.cells, s.Refers (id.replace new old) y :=
      fun y hy => hid ▸ (he.refers y).mpr hy
    cases applyFormula_applied sound hc formula with
    | failed _ hfailed => cases hcompile.symm.trans hfailed
    | circular tree' hcompile' closes =>
      obtain rfl := Except.ok.inj (hcompile.symm.trans hcompile')
      obtain ⟨r, hr, hback⟩ := closes
      rw [Expr.cells_replace] at hr
      obtain ⟨y, hy, rfl⟩ := List.mem_map.mp hr
      exact absurd hback (h.not_closes hs.kept.sound.linked fresh (hrefers y hy))
    | built tree' hcompile' d error sane here recomputed =>
      obtain rfl := Except.ok.inj (hcompile.symm.trans hcompile')
      have hstance := recomputed.stance_eq
      refine h.settle (applyFormula_roster e id) (fun x hx => applyFormula_others e hx) here ?_
        fun y hy => ?_
      · exact ⟨b, hb, (Cell.formula_eq_of_stance hstance).trans htext,
          (Cell.isTable_eq_of_stance hstance).trans (formula.symm.trans htable),
          (Cell.isStructural_eq_of_stance hstance).trans sane⟩
      · rw [Cell.references_eq_of_stance hstance, Expr.mem_references, Expr.cells_replace] at hy
        obtain ⟨z, hz, rfl⟩ := List.mem_map.mp hy
        have hne : z ≠ new := fun he => fresh (he ▸ hs.kept.sound.linked.mem_ids (hrefers z hz))
        rw [CellId.replace_replace hne]
        exact hrefers z hz
  · rwa [hstay]

theorem rebind_mends (hs : s.Healthy settings) (fresh : new ∉ s.ids) (h : s.Mends old new e.sheet)
    (sound : e.sheet.Sound) (name : String) : s.Mends old new (e.rebind name).sheet := by
  have hboth := rebind_invariant (fun t => t.Sound ∧ s.Mends old new t)
    (fun e id ⟨hsound, hmends⟩ =>
    ⟨applyFormula_sound_of_sound hsound id,
      applyFormula_mends hs fresh hmends (hsound.soundBut id)⟩)
    ⟨sound, h⟩ name
  exact hboth.2

end Edit

namespace Sheet

variable {settings : Settings} {s t u : Sheet} {old new x y : CellId} {c d gone : Cell}

section Deletion

variable (hs : s.Healthy settings) (hg : s.cell? gone.id = some gone) (h : s.Loses gone t)
include hs hg h

/-- The trees of the cells that referred to a lost cell still name it. -/
theorem Loses.hasError (inert : s.Inert) (grounded : t.Grounded) (hx : x ∈ gone.referencedBy) :
    t.hasError x = true := by
  have hrefers : s.Refers x gone.id := (hs.kept.sound.linked.inverse.mem_referencedBy hg).mp hx
  obtain ⟨d, hd⟩ : ∃ d, t.cell? x = some d := by
    rw [← mem_ids_iff, ids_eq_of_roster h.roster, mem_ids_removeCell]
    exact ⟨mem_ids_of_mem_referencesOf hrefers, fun he =>
      hs.kept.sound.linked.acyclic.not_mem_self _ (he ▸ hrefers)⟩
  obtain ⟨c, hc, hstance⟩ := h.cell? hd
  obtain ⟨tree, v, hshows⟩ := hs.shows hc (inert.isTable hc (.single hrefers))
  have hnamed : gone.id ∈ tree.cells :=
    ((hs.kept.sound.bound.references x c tree hc hshows.grown gone.id).mp
      ((mem_references_iff hc).mpr hrefers)).1
  have htree : d.tree? = some tree := by
    rw [Cell.tree?_eq_of_stance hstance, Cell.detach_tree?]
    exact hshows.grown
  rw [Sheet.hasError, hd, Option.any_some, Cell.hasError, Option.isSome_iff_ne_none]
  exact fun he => h.not_mem_ids (grounded x d tree hd he htree gone.id hnamed)

/-- A cell that is made anew has its name again, and is not yet settled. -/
theorem Loses.mends (sound : t.Sound) (formula : gone.isTable = false) : s.Mends gone.id t.nextId
    (t.insertCell gone.name gone.formula (.formula none)) := by
  have hfresh := h.nextId_not_mem hs.kept.sound.indexed
  refine ⟨fun name y hy => ?_, fun x d hd => ?_, fun x y hr => ?_⟩
  · rw [idOf?_insertCell, h.idOf?]
    by_cases hn : name = gone.name
    · obtain rfl : gone.id = y :=
        Option.some.inj ((hs.kept.sound.indexed.idOf?_name hg).symm.trans (hn ▸ hy))
      rw [if_pos hn, CellId.replace_self]
    · have hne : y ≠ gone.id := by
        rintro rfl
        obtain ⟨c, hc, hname⟩ := (hs.kept.sound.indexed.names name gone.id).mp hy
        obtain rfl := Option.some.inj (hg.symm.trans hc)
        exact hn hname.symm
      rw [if_neg hn, if_neg hn, CellId.replace_of_ne hne, hy]
  · rw [sound.indexed.cell?_insertCell] at hd
    split_ifs at hd with hx
    · cases hd
      rw [hx, CellId.replace_self]
      exact ⟨gone, hg, rfl, formula.symm, rfl⟩
    · obtain ⟨c, hc, hstance⟩ := h.cell? hd
      rw [CellId.replace_of_ne hx]
      refine ⟨c, hc, ?_, ?_, ?_⟩
      · rw [Cell.formula_eq_of_stance hstance, Cell.detach_formula]
      · rw [Cell.isTable_eq_of_stance hstance, Cell.detach_isTable]
      · rw [Cell.isStructural_eq_of_stance hstance, Cell.isStructural, Cell.detach_error,
          hs.error hc]
        rfl
  · change y ∈ (t.insertCell gone.name gone.formula (.formula none)).referencesOf x at hr
    rw [sound.indexed.referencesOf_insertCell] at hr
    have hrefers := h.refers hs.kept.sound hg hr
    have hx : x ≠ t.nextId := fun he => hfresh (he ▸ mem_ids_of_mem_referencesOf hrefers)
    have hy : y ≠ t.nextId := fun he => hfresh (he ▸ hs.kept.sound.linked.mem_ids hrefers)
    rwa [CellId.replace_of_ne hx, CellId.replace_of_ne hy]

/-- A lost cell can be made anew in its place. -/
theorem Loses.createCell (sound : t.Sound) (formula : gone.isTable = false)
    (valid : isValidName gone.name = true) : ∃ e,
      t.createCell (some gone.name) (some gone.formula) = .ok (t.nextId, e) ∧
      s.Mends gone.id t.nextId e.sheet ∧ e.sheet.ids = t.ids ++ [t.nextId] := by
  have hfree : t.idOf? gone.name = none := by
    rw [h.idOf?, if_pos rfl]
  have hfresh := h.nextId_not_mem hs.kept.sound.indexed
  have hbut := sound.insertCell hfree gone.formula (.formula none) fun _ => nofun
  let e : Edit := (t.insertCell gone.name gone.formula (.formula none)).unchanged
  refine ⟨_, createCell_of_free valid hfree gone.formula, ?_, ?_⟩
  · exact Edit.rebind_mends hs hfresh
      (Edit.applyFormula_mends (e := e) hs hfresh (h.mends hs hg sound formula) hbut)
      (Edit.applyFormula_sound hbut (sound.indexed.cell?_insertCell_self ..) rfl) gone.name
  · rw [ids_eq_of_roster ((Edit.rebind_roster _ _).trans (Edit.applyFormula_roster e t.nextId))]
    exact ids_insertCell t gone.name gone.formula (.formula none)

end Deletion

section Mended

variable (hs : s.Healthy settings) (fresh : new ∉ s.ids) (h : s.Mends old new u)
  (kept : u.Kept settings)

include h in
theorem Mends.not_structural (hd : u.cell? x = some d) : d.isStructural = false := by
  obtain ⟨-, -, -, -, hsane⟩ := h.cells x d hd
  exact hsane

include hs fresh h kept

theorem Mends.cell? (hc : s.cell? x = some c) : ∃ d, u.cell? (x.replace old new) = some d ∧
    d.name = c.name ∧ d.formula = c.formula ∧ d.isTable = c.isTable := by
  have hname := h.names c.name x (hs.kept.sound.indexed.idOf?_name hc)
  obtain ⟨d, hd, hdname⟩ := (kept.sound.indexed.names c.name _).mp hname
  obtain ⟨c', hc', hformula, htable, -⟩ := h.cells _ d hd
  have hne : x ≠ new := fun he => fresh (he ▸ mem_ids_iff.mpr ⟨c, hc⟩)
  rw [CellId.replace_replace hne, hc] at hc'
  obtain rfl := Option.some.inj hc'
  exact ⟨d, hd, hdname, hformula, htable⟩

/-- A mended cell has the tree that its formula has now, and all cells that this names are there. -/
theorem Mends.grown (hc : s.cell? c.id = some c) (formula : c.isTable = false)
    (hd : u.cell? (c.id.replace old new) = some d) : ∃ tree tree' v,
      s.Formulates c tree v ∧ d.tree? = some tree' ∧ (∀ y ∈ tree'.cells, y ∈ u.ids) ∧
      tree'.anonymous = (tree.mapRefs (CellRef.replace old new)).anonymous := by
  obtain ⟨d', hd', -, hformula, htable⟩ := h.cell? hs fresh kept hc
  obtain rfl := Option.some.inj (hd.symm.trans hd')
  obtain ⟨tree, v, he⟩ := hs.formulates hc formula
  have hcompile : compile u.resolver d.formula = .ok _ := hformula ▸ h.compiles he.compiles
  have hsettles : d.isTable = false := htable.trans formula
  obtain ⟨tree', htree⟩ : ∃ tree', d.tree? = some tree' := by
    rw [← Option.ne_none_iff_exists']
    intro hnone
    have hfault := (kept.sound.classified _ d hd hsettles).mp hnone
    rw [h.not_structural hd] at hfault
    cases hfault
  have halert := kept.alert.cells _ d hd hsettles
  have hlive : ∀ y ∈ tree'.cells, y ∈ u.ids := (halert.whole tree' htree).resolve_right fun hm =>
    hm.compile_ne_ok (fun name hn => halert.dead name hn (by simp)) _ hcompile
  obtain ⟨-, e, he', hanon⟩ := kept.phrased _ d tree' hd htree hlive
  obtain rfl := Except.ok.inj (hcompile.symm.trans he')
  exact ⟨tree, tree', v, he, htree, hlive, hanon.symm⟩

theorem Mends.refers_replace (inert : s.Inert) (hr : s.Refers x y) :
    u.Refers (x.replace old new) (y.replace old new) := by
  obtain ⟨c, hc⟩ := mem_ids_iff.mp (mem_ids_of_mem_referencesOf hr)
  obtain rfl := cell?_id hc
  obtain ⟨d, hd, -⟩ := h.cell? hs fresh kept hc
  obtain ⟨tree, tree', v, he, htree, hlive, hanon⟩ :=
    h.grown hs fresh kept hc (inert.isTable hc (.single hr)) hd
  have hy : y.replace old new ∈ tree'.cells := by
    rw [Expr.cells_eq_of_anonymous hanon, Expr.cells_replace]
    exact List.mem_map_of_mem ((he.refers y).mp hr)
  exact kept.sound.bound.refers hd htree hy (hlive _ hy)

theorem Mends.tree_eq (hc : s.cell? c.id = some c) (hd : u.cell? (c.id.replace old new) = some d) :
    d.tree?.map Expr.anonymous =
      c.tree?.map fun tree => (tree.mapRefs (CellRef.replace old new)).anonymous := by
  cases ht : c.isTable with
  | true =>
    obtain ⟨d', hd', -, -, htable⟩ := h.cell? hs fresh kept hc
    obtain rfl := Option.some.inj (hd.symm.trans hd')
    rw [Cell.tree?_of_isTable ht, Cell.tree?_of_isTable (htable.trans ht)]
    rfl
  | false =>
    obtain ⟨e, tree', v, he, htree', -, hanon⟩ := h.grown hs fresh kept hc ht hd
    obtain ⟨tree, v', hshows⟩ := hs.shows hc ht
    obtain ⟨e', he', hsame⟩ := (hs.inPhrase hc hshows.grown).compiles
    obtain rfl := Except.ok.inj (he.compiles.symm.trans he')
    rw [htree', hshows.grown, Option.map_some, Option.map_some, hanon, Expr.anonymous_replace,
      hsame,
      ← Expr.anonymous_replace]

theorem Mends.moved (inert : s.Inert) (gone : old ∉ u.ids) (hc : s.cell? c.id = some c) :
    ∃ d, u.cell? (c.id.replace old new) = some d ∧ c.Moved old new d := by
  obtain ⟨d, hd, hname, hformula, -⟩ := h.cell? hs fresh kept hc
  have hid : (c.id.replace old new).replace new old = c.id :=
    CellId.replace_replace fun he => fresh (he ▸ mem_ids_iff.mpr ⟨c, hc⟩)
  have hforth : ∀ x y, s.Refers x y → u.Refers (x.replace old new) (y.replace old new) :=
    fun x y => h.refers_replace hs fresh kept inert
  have hback := h.refers
  obtain ⟨hnot, hnotDeep, hnotBack⟩ := kept.sound.not_mem_links hd gone
  have hdeep := (hs.kept.sound.upToDate c.id).deep
  have hdeep' := (kept.sound.upToDate (c.id.replace old new)).deep
  have hinverse := hs.kept.sound.linked.inverse
  have hinverse' := kept.sound.linked.inverse
  refine ⟨d, hd, hname, hformula, h.tree_eq hs fresh kept hc hd, ?_, ?_, ?_⟩
  · refine IdSet.eq_replace hnot (fun y hy => ?_) fun y hy => ?_
    · exact (mem_references_iff hd).mpr (hforth _ y ((mem_references_iff hc).mp hy))
    · exact (mem_references_iff hc).mpr (hid ▸ hback _ y ((mem_references_iff hd).mp hy))
  · refine IdSet.eq_replace hnotDeep (fun y hy => ?_) fun y hy => ?_
    · exact (hdeep'.mem_deep hd).mpr
        (TransGen.lift (·.replace old new) hforth _ _ ((hdeep.mem_deep hc).mp hy))
    · exact (hdeep.mem_deep hc).mpr
        (hid ▸ TransGen.lift (·.replace new old) hback _ _ ((hdeep'.mem_deep hd).mp hy))
  · refine IdSet.eq_replace hnotBack (fun y hy => ?_) fun y hy => ?_
    · exact (hinverse'.mem_referencedBy hd).mpr (hforth y _ ((hinverse.mem_referencedBy hc).mp hy))
    · exact (hinverse.mem_referencedBy hc).mpr
        (hid ▸ hback y _ ((hinverse'.mem_referencedBy hd).mp hy))

/-- The tree of a cell that referred to the old cell names the new one. -/
theorem Mends.rebound (inert : s.Inert) (gone : old ∉ u.ids) (hr : s.Refers x old) :
    ∃ d tree, u.cell? x = some d ∧ d.tree? = some tree ∧ new ∈ tree.cells ∧ old ∉ tree.cells := by
  obtain ⟨c, hc⟩ := mem_ids_iff.mp (mem_ids_of_mem_referencesOf hr)
  obtain rfl := cell?_id hc
  obtain ⟨d, hd, -⟩ := h.cell? hs fresh kept hc
  obtain ⟨e, tree, v, he, htree, hlive, hanon⟩ :=
    h.grown hs fresh kept hc (inert.isTable hc (.single hr)) hd
  have hne : c.id ≠ old := fun he => hs.kept.sound.linked.acyclic.not_mem_self old (he ▸ hr)
  rw [CellId.replace_of_ne hne] at hd
  refine ⟨d, tree, hd, htree, ?_, fun hm => gone (hlive old hm)⟩
  rw [Expr.cells_eq_of_anonymous hanon, Expr.cells_replace]
  exact List.mem_map.mpr ⟨old, (he.refers old).mp hr, CellId.replace_self old new⟩

end Mended

end Sheet

namespace Session

variable {settings : Settings} {s : Session} {id : CellId} {c : Cell} {e : Edit}

/-- A cell that is there can be deleted. -/
theorem perform_deleteCell (kept : s.sheet.Kept settings) (hc : s.sheet.cell? c.id = some c) :
    (s.perform (.deleteCell c.id)).reply = .done ∧
      s.sheet.Loses c (s.perform (.deleteCell c.id)).session.sheet ∧
      (s.perform (.deleteCell c.id)).session.sheet.Kept settings := by
  obtain ⟨e, he⟩ : ∃ e, s.sheet.deleteCell c.id = .ok e := by
    simp [Sheet.deleteCell, Sheet.cell, hc]
  have hperform : s.perform (.deleteCell c.id) = ⟨⟨e.sheet, s.subscriptions.dropCell c.id⟩, .done,
      s.subscriptions.deliver e.changes⟩ := by
    simp only [perform_deleteCell_eq, delete, he]
  rw [hperform]
  exact ⟨rfl, Sheet.deleteCell_loses hc he, (Sheet.Makes.deleteCell he).kept kept⟩

theorem perform_createCell {name formula : Option String}
    (h : s.sheet.createCell name formula = .ok (id, e)) :
    s.perform (.createCell name formula) = s.accept (.created id) e := by
  simp only [perform_createCell_eq, attemptCreate, h]

/-- In a sheet without errors, after any operations, a formula cell with a valid name goes, and is
then made anew under its name and with its formula. Meanwhile all cells that referred to it are in
error, and no cell has it on record. In the end no formula is at fault and none closes a cycle, and
all cells are as they were, with the new cell for the old one, but for what they show. -/
theorem run_recreated (settings : Settings) (operations : List Operation) :
    let session := (new settings).run operations
    let s := session.sheet
    (∀ d ∈ s.cells, d.error = none) → ∀ c ∈ s.cells, c.isTable = false →
      isValidName c.name = true →
      let deleted := session.perform (.deleteCell c.id)
      let t := deleted.session.sheet
      let created := deleted.session.perform (.createCell (some c.name) (some c.formula))
      let u := created.session.sheet
      deleted.reply = .done ∧ (∀ x ∈ c.referencedBy, t.hasError x = true) ∧
      (∀ d ∈ t.cells, c.id ∉ d.references ∧ c.id ∉ d.deep ∧ c.id ∉ d.referencedBy) ∧
      ∃ id, created.reply = .created id ∧ id ∉ s.ids ∧ u.ids = s.ids.erase c.id ++ [id] ∧
        (∀ d ∈ u.cells, d.errorKind? ≠ some .definition ∧
          d.errorKind? ≠ some .circularReference) ∧
        (∀ x ∈ c.referencedBy, ∃ d tree, u.cell? x = some d ∧ d.tree? = some tree ∧
          id ∈ tree.cells ∧ c.id ∉ tree.cells) ∧
        ∀ b ∈ s.cells, ∃ d, u.cell? (b.id.replace c.id id) = some d ∧ b.Moved c.id id d := by
  intro session s hclean c hc hformula hvalid deleted t created u
  have hs : s.Healthy settings := ⟨run_kept settings operations, hclean⟩
  have hinert : s.Inert := run_inert settings operations
  have hcell := Sheet.cell?_of_mem hs.kept.sound.indexed.nodup hc
  obtain ⟨hdone, hloses, hkept⟩ : deleted.reply = .done ∧ s.Loses c t ∧ t.Kept settings :=
    perform_deleteCell hs.kept hcell
  obtain ⟨e, hcreate, hmends, hids⟩ := hloses.createCell hs hcell hkept.sound hformula hvalid
  have hcreated : created = _ := perform_createCell hcreate
  have hu : u = e.sheet := congrArg (·.session.sheet) hcreated
  have hkept' : u.Kept settings := hu ▸ (Sheet.Makes.createCell hcreate).kept hkept
  rw [← hu] at hmends hids
  have hfresh := hloses.nextId_not_mem hs.kept.sound.indexed
  have hgone : c.id ∉ u.ids := by
    rw [hids, List.mem_append, List.mem_singleton]
    rintro (hm | hm)
    · exact hloses.not_mem_ids hm
    · exact hfresh (hm ▸ List.mem_map_of_mem hc)
  rw [hloses.ids_eq hs.kept.sound.indexed] at hids
  refine ⟨hdone, fun x hx => ?_, fun d hd => ?_, t.nextId,
    congrArg Step.reply hcreated, hfresh, hids, fun d hd => ?_, fun x hx => ?_, fun b hb => ?_⟩
  · exact hloses.hasError hs hcell hinert hkept.grounded hx
  · exact hkept.sound.not_mem_links (Sheet.cell?_of_mem hkept.sound.indexed.nodup hd)
      hloses.not_mem_ids
  · have hsane := hmends.not_structural (Sheet.cell?_of_mem hkept'.sound.indexed.nodup hd)
    rwa [← Bool.not_eq_true, Cell.isStructural_iff, not_or] at hsane
  · exact hmends.rebound hs hfresh hkept' hinert hgone
      ((hs.kept.sound.linked.inverse.mem_referencedBy hcell).mp hx)
  · exact hmends.moved hs hfresh hkept' hinert hgone
      (Sheet.cell?_of_mem hs.kept.sound.indexed.nodup hb)

set_option maxRecDepth 20000 in
/-- The first of two cells, to which the second one refers, goes and is made anew. -/
theorem run_recreated_referenced :
    let session := (new .default).run
      [.createCell (some "a") (some "true"), .createCell (some "b") (some "a")]
    let s := session.sheet
    (∀ d ∈ s.cells, d.error = none) ∧ ∃ c ∈ s.cells, c.isTable = false ∧
      isValidName c.name = true ∧ c.name = "a" ∧
      let deleted := session.perform (.deleteCell c.id)
      let t := deleted.session.sheet
      let created := deleted.session.perform (.createCell (some c.name) (some c.formula))
      let u := created.session.sheet
      deleted.reply = .done ∧ (∀ x ∈ c.referencedBy, t.hasError x = true) ∧
      (∀ d ∈ t.cells, c.id ∉ d.references ∧ c.id ∉ d.deep ∧ c.id ∉ d.referencedBy) ∧
      ∃ id, created.reply = .created id ∧ id ∉ s.ids ∧ u.ids = s.ids.erase c.id ++ [id] ∧
        (∀ d ∈ u.cells, d.errorKind? ≠ some .definition ∧
          d.errorKind? ≠ some .circularReference) ∧
        (∀ x ∈ c.referencedBy, ∃ d tree, u.cell? x = some d ∧ d.tree? = some tree ∧
          id ∈ tree.cells ∧ c.id ∉ tree.cells) ∧
        ∀ b ∈ s.cells, ∃ d, u.cell? (b.id.replace c.id id) = some d ∧ b.Moved c.id id d := by
  have hstate :
      let s := ((new .default).run
        [.createCell (some "a") (some "true"), .createCell (some "b") (some "a")]).sheet
      s.cells.map (fun c => (c.name, c.isTable, c.error)) =
        [("a", false, none), ("b", false, none)] := by
    cbv
  have hcells : ∀ cells : List Cell, cells.map (fun c => (c.name, c.isTable, c.error)) =
      [("a", false, none), ("b", false, none)] →
        (∀ d ∈ cells, d.error = none) ∧ ∃ c ∈ cells, c.isTable = false ∧ c.name = "a" := by
    intro cells hmap
    have hclean : ∀ flags ∈ cells.map fun c => (c.name, c.isTable, c.error), flags.2.2 = none := by
      simp [hmap]
    obtain ⟨c, hc, hcell⟩ := List.mem_map.mp (hmap ▸ List.mem_cons_self)
    exact ⟨List.forall_mem_map.mp hclean, c, hc, congrArg (·.2.1) hcell, congrArg (·.1) hcell⟩
  intro session s
  obtain ⟨hclean, c, hc, hformula, hname⟩ := hcells s.cells hstate
  have hvalid : isValidName c.name = true := by
    rw [hname]
    decide
  exact ⟨hclean, c, hc, hformula, hvalid, hname,
    run_recreated _ _ hclean c hc hformula hvalid⟩

end Session

end LiveSheet
