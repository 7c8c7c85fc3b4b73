import LiveSheet.Proofs.Sheet.Alert
import LiveSheet.Proofs.Sheet.Grounded

namespace LiveSheet

namespace Sheet

variable {s t : Sheet} {id x : CellId} {c gone : Cell} {name : String}

theorem claimName_valid {wanted : Option String} (h : s.claimName wanted = .ok (name, t))
    (proper : t.settings.Proper) : isValidName name = true := by
  unfold claimName at h
  cases wanted with
  | some w =>
    dsimp only at h
    split_ifs at h with hv hu
    obtain ⟨rfl, -⟩ : w = name ∧ s = t := by simpa using h
    simpa using hv
  | none =>
    obtain ⟨rfl, rfl⟩ : s.generatedName s.freshNumber = name ∧
        { s with lastName := s.freshNumber } = t := by simpa using h
    exact proper s.freshNumber

theorem Alert.new (settings : Settings) : (Sheet.new settings).Alert :=
  ⟨fun _ _ _ hc => (by cases hc), fun _ _ hc => (by cases hc)⟩

theorem Alert.claim {wanted : Option String} (h : s.Alert)
    (hc : s.claimName wanted = .ok (name, t)) : t.Alert := by
  obtain ⟨-, n, rfl⟩ := claimName_ok hc
  refine ⟨h.named, fun x c hc ht => ?_⟩
  obtain ⟨hdead, hcut, hwhole, hhopeless⟩ := h.cells x c hc ht
  exact ⟨hdead, hcut, hwhole, hhopeless⟩

theorem Named.insertCell (h : s.Named) (hs : s.Indexed)
    (valid : s.settings.Proper → isValidName name = true) (formula : String) (content : Content) :
    (s.insertCell name formula content).Named := by
  intro proper x c hc
  rw [hs.cell?_insertCell] at hc
  split at hc
  next =>
    cases hc
    exact valid proper
  next => exact h proper x c hc

/-- The other cells need not be alert to a name that has just come up. -/
theorem Alert.insertCell (h : s.Alert) (hs : s.Indexed) (name formula : String)
    (content : Content) (hx : x ≠ s.nextId) :
    (s.insertCell name formula content).AlertAt [name] x := by
  intro c hc ht
  rw [hs.cell?_insertCell_other name formula content hx] at hc
  obtain ⟨hdead, hcut, hwhole, hhopeless⟩ := h.cells x c hc ht
  refine ⟨fun n hn hne => ?_, hcut, fun tree htree => ?_, hhopeless⟩
  · rw [idOf?_insertCell, if_neg (by simpa using hne)]
    exact hdead n hn (by simp)
  · refine (hwhole tree htree).imp_left fun hlive y hy => ?_
    rw [ids_insertCell]
    exact List.mem_append_left _ (hlive y hy)

theorem createCell_alert {wanted formula : Option String} {e : Edit} (hs : s.Sound) (h : s.Alert)
    (hc : s.createCell wanted formula = .ok (id, e)) : e.sheet.Alert := by
  obtain ⟨name, t, hclaim, -, rfl⟩ := createCell_eq_ok hc
  have ht := (hs.claim hclaim).indexed
  have hfree := claimName_free hclaim
  have hvalid := claimName_valid hclaim
  let text := formula.getD t.settings.defaultFormula
  let e₀ : Edit := (t.insertCell name text (.formula none)).unchanged
  have hcell : e₀.sheet.cell? t.nextId = some (Cell.new t.nextId name text (.formula none)) :=
    ht.cell?_insertCell_self name text (.formula none)
  have hindexed : e₀.sheet.Indexed := ht.insertCell hfree text (.formula none)
  have hroster := Edit.applyFormula_roster e₀ t.nextId
  obtain ⟨hhere, hothers⟩ := Edit.applyFormula_alertAt hcell rfl hindexed
  apply Edit.rebind_alert (hindexed.of_roster hroster.symm)
  · exact ((h.claim hclaim).named.insertCell ht hvalid text (.formula none)).of_roster hroster
  · intro x
    by_cases hx : x = t.nextId
    · exact hx ▸ hhere.weaken [name]
    · exact hothers x _ hx ((h.claim hclaim).insertCell ht name text (.formula none) hx)

theorem createTable_alert {wanted : Option String} {rows cols : Nat} {e : Edit} (hs : s.Sound)
    (h : s.Alert) (hc : s.createTable wanted rows cols = .ok (id, e)) : e.sheet.Alert := by
  obtain ⟨name, t, hclaim, -, rfl⟩ := createTable_eq_ok hc
  have ht := (hs.claim hclaim).indexed
  have hvalid := claimName_valid hclaim
  apply Edit.rebind_alert (ht.insertCell (claimName_free hclaim) _ _)
  · exact (h.claim hclaim).named.insertCell ht hvalid "" (.table (Grid.zeros rows cols))
  · intro x
    by_cases hx : x = t.nextId
    · subst x
      intro d hd hdt
      have hcell := ht.cell?_insertCell_self name "" (.table (Grid.zeros rows cols))
      obtain rfl := Option.some.inj (hcell.symm.trans hd)
      cases hdt
    · exact (h.claim hclaim).insertCell ht name "" (.table (Grid.zeros rows cols)) hx

section Deletion

variable (hs : s.Sound) (hg : s.cell? gone.id = some gone)
include hs hg

/-- A cell that refers to another one uses its name, if its tree is in phrase. -/
theorem uses_name {tree : Expr} (hphrase : s.InPhrase c tree) (hm : gone.id ∈ tree.cells) :
    Terminated c.formula ∧ isValidName gone.name = true ∧ Uses c.formula gone.name := by
  obtain ⟨-, e, he, hanon⟩ := hphrase
  rw [← Expr.cells_eq_of_anonymous hanon, Expr.cells_eq] at hm
  obtain ⟨ref, hr, hid⟩ := List.mem_map.mp hm
  have hname := name_eq_of_mem_refs hs.indexed hg he hr hid
  rw [← hname]
  exact ⟨terminated_of_compile he, (resolve_of_mem_refs he hr).1, uses_of_mem_refs he hr⟩

theorem detach_alertIn (hp : s.Phrased) (hc : s.cell? x = some c)
    (h : c.AlertIn s []) : (Cell.detach gone c).AlertIn (s.removeCell gone) [] := by
  have hmutual : gone.id ∈ c.references ↔ c.id ∈ gone.referencedBy := by
    have hm := hs.linked.inverse x gone.id
    rwa [referencesOf_of_cell? hc, dependentsOf_of_cell? hg, ← cell?_id hc] at hm
  have hkind : (Cell.detach gone c).errorKind? = c.errorKind? := by
    rw [Cell.errorKind?, Cell.errorKind?, Cell.detach_error]
  have hmore : ∀ name ∈ c.unresolved, name ∈ (Cell.detach gone c).unresolved :=
    fun name hn => Cell.mem_detach_unresolved.mpr (.inl hn)
  refine ⟨fun name hn _ => ?_, fun hk => ?_, fun tree ht => ?_, fun proper hk => ?_⟩
  · rw [idOf?_removeCell]
    rcases Cell.mem_detach_unresolved.mp hn with hn | ⟨-, rfl⟩
    · rw [h.dead name hn (by simp), ite_self]
    · rw [if_pos rfl]
  · obtain ⟨hrefs, hresolved⟩ := h.cut (hkind ▸ hk)
    have hapart : c.id ∉ gone.referencedBy := by
      rw [← hmutual, hrefs]
      exact IdSet.not_mem_empty
    obtain ⟨hr, hu⟩ := Cell.detach_eq_of_apart hapart
    exact ⟨hr.trans hrefs, hu.trans hresolved⟩
  · have htree : c.tree? = some tree := Cell.detach_tree? gone c ▸ ht
    rcases h.whole tree htree with hlive | hm
    · by_cases hgone : gone.id ∈ tree.cells
      · obtain ⟨hterminated, hvalid, huses⟩ :=
          uses_name hs hg (hp x c tree hc htree hlive) hgone
        have hrefers : gone.id ∈ c.references :=
          (hs.bound.references x c tree hc htree gone.id).mpr ⟨hgone, hlive _ hgone⟩
        right
        rw [Cell.Misses, Cell.detach_formula]
        exact ⟨hterminated, gone.name,
          Cell.mem_detach_unresolved.mpr (.inr ⟨hmutual.mp hrefers, rfl⟩), hvalid, huses⟩
      · left
        intro y hy
        exact mem_ids_removeCell.mpr ⟨hlive y hy, fun he => hgone (he ▸ hy)⟩
    · exact .inr (hm.of_eq (Cell.detach_formula gone c) hmore)
  · exact (h.hopeless proper (hkind ▸ hk)).of_eq (Cell.detach_formula gone c) hmore

theorem removeCell_alert (hp : s.Phrased) (h : s.Alert) : (s.removeCell gone).Alert := by
  refine ⟨fun proper x d hd => ?_, fun x d hd ht => ?_⟩
  · obtain ⟨-, c, hc, rfl⟩ := cell?_of_removeCell hd
    rw [Cell.detach_name]
    exact h.named proper x c hc
  · obtain ⟨-, c, hc, rfl⟩ := cell?_of_removeCell hd
    rw [Cell.detach_isTable] at ht
    exact detach_alertIn hs hg hp hc (h.cells x c hc ht)

/-- Only cells that depend on a deleted one may be left with a tree that names it. -/
theorem removeCell_groundedAt (h : s.GroundedAt x)
    (apart : x ∉ (s.removeCell gone).affectedOrder gone.referencedBy.ids) :
    (s.removeCell gone).GroundedAt x := by
  intro d tree hd he ht y hy
  obtain ⟨-, c, hc, rfl⟩ := cell?_of_removeCell hd
  rw [Cell.detach_error] at he
  have htree : c.tree? = some tree := Cell.detach_tree? gone c ▸ ht
  have hlive := h c tree hc he htree y hy
  refine mem_ids_removeCell.mpr ⟨hlive, ?_⟩
  rintro rfl
  apply apart
  exact mem_affectedOrder_removeCell hs hg (.single (hs.bound.refers hc htree hy hlive))

end Deletion

theorem deleteCell_alert {e : Edit} (hs : s.Sound) (hp : s.Phrased) (h : s.Alert)
    (hd : s.deleteCell id = .ok e) : e.sheet.Alert := by
  obtain ⟨gone, -, hg, rfl⟩ := deleteCell_eq_ok hd
  have halert := removeCell_alert hs hg hp h
  let e₀ : Edit := (s.removeCell gone).unchanged.announce gone.id .deleteRequested
  have hroster := roster_eq_of_outline
    (Edit.outline_refreshAll e₀ ((s.removeCell gone).affectedOrder gone.referencedBy.ids))
  exact ⟨halert.named.of_roster hroster, fun x =>
    (halert.cells x).of_sameStance (Edit.refreshAll_sameStance e₀ _ x) hroster⟩

theorem deleteCell_grounded {e : Edit} (hs : s.Sound) (h : s.Grounded)
    (hd : s.deleteCell id = .ok e) : e.sheet.Grounded := by
  obtain ⟨gone, -, hg, rfl⟩ := deleteCell_eq_ok hd
  exact Edit.refreshAll_grounded fun x hx => removeCell_groundedAt hs hg (h x) hx

theorem setFormula_alert {formula : String} {e : Edit} (hs : s.Sound) (h : s.Alert)
    (hf : s.setFormula id formula = .ok e) : e.sheet.Alert := by
  obtain ⟨c, hc, ht, rfl⟩ := setFormula_eq_ok hf
  let e₀ := s.unchanged.setFormula id formula
  have hroster₀ : e₀.sheet.roster = s.roster := roster_setFormula s id formula
  have hroster := (Edit.applyFormula_roster e₀ id).trans hroster₀
  obtain ⟨hhere, hothers⟩ := Edit.applyFormula_alertAt (e := e₀) (cell?_setFormula hc formula) ht
    (hs.indexed.of_roster hroster₀.symm)
  refine ⟨h.named.of_roster hroster, fun x => ?_⟩
  by_cases hx : x = id
  · rw [hx]
    exact hhere
  · exact hothers x [] hx ((h.cells x).of_sameStance
      (.of_cell?_eq (Edit.setFormula_others s.unchanged formula hx)) hroster₀)

theorem setFormula_grounded {formula : String} {e : Edit} (h : s.Grounded)
    (hf : s.setFormula id formula = .ok e) : e.sheet.Grounded := by
  obtain ⟨c, hc, ht, rfl⟩ := setFormula_eq_ok hf
  refine Edit.applyFormula_grounded (cell?_setFormula hc formula) ht fun x hx => ?_
  apply (h x).of_sameCore
  · exact ids_eq_of_roster (roster_setFormula s id formula)
  · exact .of_cell?_eq (Edit.setFormula_others s.unchanged formula hx)

theorem GroundedAt.insertCell (h : s.GroundedAt x) (hs : s.Indexed) (name formula : String)
    (content : Content) (hx : x ≠ s.nextId) :
    (s.insertCell name formula content).GroundedAt x := by
  intro c tree hc he ht y hy
  rw [hs.cell?_insertCell_other name formula content hx] at hc
  rw [ids_insertCell]
  exact List.mem_append_left _ (h c tree hc he ht y hy)

theorem createCell_grounded {wanted formula : Option String} {e : Edit} (hs : s.Sound)
    (h : s.Grounded) (hc : s.createCell wanted formula = .ok (id, e)) : e.sheet.Grounded := by
  obtain ⟨name, t, hclaim, -, rfl⟩ := createCell_eq_ok hc
  have ht := (hs.claim hclaim).indexed
  obtain ⟨-, n, rfl⟩ := claimName_ok hclaim
  apply Edit.rebind_grounded
  exact Edit.applyFormula_grounded (ht.cell?_insertCell_self ..) rfl fun x hx =>
    GroundedAt.insertCell (s := { s with lastName := n }) (h x) ht _ _ _ hx

theorem insertTable_grounded {name : String} (hs : s.Indexed) (h : s.Grounded) (grid : Grid) :
    (s.insertCell name "" (.table grid)).Grounded := by
  intro x
  by_cases hx : x = s.nextId
  · subst x
    exact groundedAt_of_treeless (hs.cell?_insertCell_self ..) rfl
  · exact (h x).insertCell hs _ _ _ hx

theorem createTable_grounded {wanted : Option String} {rows cols : Nat} {e : Edit} (hs : s.Sound)
    (h : s.Grounded) (hc : s.createTable wanted rows cols = .ok (id, e)) : e.sheet.Grounded := by
  obtain ⟨name, t, hclaim, -, rfl⟩ := createTable_eq_ok hc
  have ht := (hs.claim hclaim).indexed
  obtain ⟨-, n, rfl⟩ := claimName_ok hclaim
  exact Edit.rebind_grounded (insertTable_grounded (s := { s with lastName := n }) ht h _) name

/-- The sheet in which a cell and the references to it have another name, before the cells that wait
for that name are settled. -/
def renamedTo (s : Sheet) (c : Cell) (new : String) : Edit :=
  (s.mayMention c).ids.foldl (renameMentions c.name new)
    ((s.relabel c.id c.name new).unchanged.announce c.id (.nameChanged c.name new))

/-- A cell as it is when the cell `renamed` is renamed. -/
def afterRenaming (s : Sheet) (renamed : Cell) (new : String) (c : Cell) : Cell :=
  { c with
    name := if c.id = renamed.id then new else c.name
    formula := if c.id ∈ s.mayMention renamed then
        (renameReference? c.formula renamed.name new).getD c.formula
      else c.formula }

theorem rename_eq_rebind {new : String} {e : Edit} (h : s.rename id new = some e) :
    e = s.unchanged ∨ ∃ c, s.cell? id = some c ∧ c.id = id ∧ isValidName new = true ∧
      s.idOf? new = none ∧ e = (s.renamedTo c new).rebind new := by
  rcases rename_eq_some h with rfl | ⟨c, hc, hvalid, hfree, rfl⟩
  · exact .inl rfl
  · obtain rfl := cell?_id hc
    exact .inr ⟨c, hc, rfl, hvalid, hfree, rfl⟩

theorem renamedTo_roster (s : Sheet) (c : Cell) (new : String) :
    (s.renamedTo c new).sheet.roster = (s.relabel c.id c.name new).roster :=
  roster_eq_of_textless (renameAll_textless c.name new _ _)

theorem renamedTo_ids (s : Sheet) (c : Cell) (new : String) :
    (s.renamedTo c new).sheet.ids = s.ids :=
  (ids_eq_of_roster (renamedTo_roster s c new)).trans
    (ids_modify (f := fun c => { c with name := new }) (fun _ => rfl) s c.id)

theorem renamedTo_sound {new : String} (hs : s.Sound) (hc : s.cell? c.id = some c)
    (free : s.idOf? new = none) : (s.renamedTo c new).sheet.Sound := by
  let e : Edit := (s.relabel c.id c.name new).unchanged.announce c.id (.nameChanged c.name new)
  exact (hs.relabel hc free).of_textless (renameAll_textless c.name new e _).symm

theorem cell?_renamedTo (hc : s.cell? c.id = some c) (new : String) (x : CellId) :
    (s.renamedTo c new).sheet.cell? x = (s.cell? x).map (s.afterRenaming c new) := by
  have hdistinct : (s.mayMention c).ids.Nodup :=
    (s.mayMention c).ascending.imp fun hlt he => Nat.ne_of_lt hlt (congrArg CellId.number he)
  rw [renamedTo, cell?_renameAll c.name new hdistinct]
  change ((s.relabel c.id c.name new).cell? x).map _ = _
  have hrelabel : (s.relabel c.id c.name new).cell? x =
      (s.cell? x).map fun d => { d with name := if d.id = c.id then new else d.name } := by
    by_cases hx : x = c.id
    · rw [hx, cell?_relabel_self hc, hc]
      simp
    · rw [cell?_relabel_ne s hx]
      cases hd : s.cell? x with
      | none => rfl
      | some d =>
        obtain rfl := cell?_id hd
        simp [hx]
  rw [hrelabel, Option.map_map]
  cases hd : s.cell? x with
  | none => rfl
  | some d =>
    obtain rfl := cell?_id hd
    simp only [Option.map_some, Function.comp_apply, afterRenaming, reworded, IdSet.mem_iff]
    split <;> rfl

theorem renamedTo_grounded (hc : s.cell? c.id = some c) (h : s.Grounded) (new : String) :
    (s.renamedTo c new).sheet.Grounded := by
  intro x
  apply (h x).congr
  · exact renamedTo_ids s c new
  · intro d hd
    rw [cell?_renamedTo hc] at hd
    obtain ⟨c, hc, rfl⟩ := Option.map_eq_some_iff.mp hd
    exact ⟨c, hc, rfl, rfl⟩

theorem rename_grounded {new : String} {e : Edit} (h : s.Grounded)
    (hr : s.rename id new = some e) : e.sheet.Grounded := by
  rcases rename_eq_rebind hr with rfl | ⟨c, hc, rfl, -, -, rfl⟩
  · exact h
  · exact Edit.rebind_grounded (renamedTo_grounded hc h new) new

/-- A renamed sheet need not be alert to the new name. -/
theorem afterRenaming_alertIn {renamed : Cell} {new : String} (hs : s.Sound)
    (hr : s.cell? renamed.id = some renamed) (named : s.Named) (hnew : isValidName new = true)
    (h : c.AlertIn s []) :
    (s.afterRenaming renamed new c).AlertIn (s.renamedTo renamed new).sheet [new] := by
  have hroster := renamedTo_roster s renamed new
  have hids : (s.renamedTo renamed new).sheet.ids = s.ids := (ids_eq_of_roster hroster).trans
    (ids_modify (f := fun c => { c with name := new }) (fun _ => rfl) s renamed.id)
  have hother : ∀ name ∈ c.unresolved, name ≠ renamed.name := by
    rintro name hn rfl
    have hdead := h.dead renamed.name hn (by simp)
    rw [hs.indexed.idOf?_name hr] at hdead
    cases hdead
  refine ⟨fun name hn hne => ?_, h.cut, fun tree ht => ?_, fun proper hk => ?_⟩
  · rw [idOf?_eq_of_roster hroster, idOf?_relabel, if_neg (by simpa using hne)]
    split
    next => rfl
    next => exact h.dead name hn (by simp)
  · rw [hids]
    refine (h.whole tree ht).imp_right fun ⟨hterminated, name, hn, hv, hu⟩ => ?_
    unfold Cell.Misses afterRenaming
    dsimp only
    split_ifs
    · obtain ⟨hu', hterminated'⟩ := hu.renamed hterminated (hother name hn) hnew
      exact ⟨hterminated', name, hn, hv, hu'⟩
    · exact ⟨hterminated, name, hn, hv, hu⟩
  · rw [settings_eq_of_roster hroster] at proper
    have hhopeless := h.hopeless proper hk
    intro resolve hresolve tree he
    simp only [afterRenaming] at he
    split_ifs at he
    · obtain ⟨tree', he'⟩ := compile_of_renamed (named proper renamed.id renamed hr) hnew he
      apply hhopeless _ (fun name hn => ?_) tree' he'
      rw [if_neg (hother name hn)]
      exact hresolve name hn
    · exact hhopeless resolve hresolve tree he

theorem rename_alert {new : String} {e : Edit} (hs : s.Sound) (h : s.Alert)
    (hr : s.rename id new = some e) : e.sheet.Alert := by
  rcases rename_eq_rebind hr with rfl | ⟨c, hc, rfl, hvalid, hfree, rfl⟩
  · exact h
  · have hroster := renamedTo_roster s c new
    apply Edit.rebind_alert ((hs.indexed.relabel hc hfree).of_roster hroster.symm)
    · intro proper x d hd
      rw [settings_eq_of_roster hroster] at proper
      rw [cell?_renamedTo hc] at hd
      obtain ⟨d', hd', rfl⟩ := Option.map_eq_some_iff.mp hd
      simp only [afterRenaming]
      split
      next => exact hvalid
      next => exact h.named proper x d' hd'
    · intro x d hd ht
      rw [cell?_renamedTo hc] at hd
      obtain ⟨d', hd', rfl⟩ := Option.map_eq_some_iff.mp hd
      exact afterRenaming_alertIn hs hc h.named hvalid (h.cells x d' hd' ht)

theorem replaceGrid_alert (h : s.Alert) (hc : s.cell? id = some c) (grid : Grid) :
    (s.replaceGrid id grid).sheet.Alert := by
  let f : Cell → Cell := fun c => { c with content := .table grid }
  let e : Edit := (s.unchanged.modify id f).announce id (.tableChanged grid.rows grid.cols)
  have hcell : e.sheet.cell? id = some (f c) := Edit.modify_cell? (f := f) (fun _ => rfl) hc
  have hroster : (s.replaceGrid id grid).sheet.roster = s.roster :=
    (Edit.propagate_roster e id).trans (Alters.modify (f := f) (fun _ => rfl) s id).roster
  refine ⟨h.named.of_roster hroster, fun x => ?_⟩
  have hsame : e.sheet.SameStance (s.replaceGrid id grid).sheet x :=
    Edit.refreshAll_sameStance e (e.sheet.below id) x
  by_cases hx : x = id
  · subst x
    intro d hd ht
    obtain ⟨d', hd', hstance⟩ := hsame.cell? hd
    obtain rfl := Option.some.inj (hcell.symm.trans hd')
    rw [Cell.isTable_eq_of_stance hstance] at ht
    cases ht
  · exact (h.cells x).of_sameStance
      ((Edit.modify_sameStance (f := f) (fun _ => rfl) s.unchanged hx).trans hsame) hroster

theorem replaceGrid_grounded (h : s.Grounded) (hc : s.cell? id = some c) (grid : Grid) :
    (s.replaceGrid id grid).sheet.Grounded := by
  let f : Cell → Cell := fun c => { c with content := .table grid }
  let e : Edit := (s.unchanged.modify id f).announce id (.tableChanged grid.rows grid.cols)
  have hcell : e.sheet.cell? id = some (f c) := Edit.modify_cell? (f := f) (fun _ => rfl) hc
  apply Edit.propagate_grounded (e := e)
  intro x
  by_cases hx : x = id
  · exact hx ▸ groundedAt_of_treeless hcell rfl
  · exact (h x).of_sameCore (Alters.modify (f := f) (fun _ => rfl) s id).ids_eq
      ((Alters.modify (f := f) (fun _ => rfl) s id).others x hx)

theorem Makes.alert {e : Edit} (h : s.Makes e) (hs : s.Sound) (hp : s.Phrased) (ha : s.Alert) :
    e.sheet.Alert := by
  cases h with
  | createCell h => exact createCell_alert hs ha h
  | createTable h => exact createTable_alert hs ha h
  | deleteCell h => exact deleteCell_alert hs hp ha h
  | setFormula h => exact setFormula_alert hs ha h
  | rename h => exact rename_alert hs ha h
  | setTableValue h =>
    obtain ⟨c, grid, hc, -, rfl⟩ := setTableValue_eq_ok h
    exact replaceGrid_alert ha hc grid
  | resizeTable h =>
    obtain ⟨c, grid, hc, -, rfl⟩ := resizeTable_eq_ok h
    exact replaceGrid_alert ha hc grid

theorem Makes.grounded {e : Edit} (h : s.Makes e) (hs : s.Sound) (hg : s.Grounded) :
    e.sheet.Grounded := by
  cases h with
  | createCell h => exact createCell_grounded hs hg h
  | createTable h => exact createTable_grounded hs hg h
  | deleteCell h => exact deleteCell_grounded hs hg h
  | setFormula h => exact setFormula_grounded hg h
  | rename h => exact rename_grounded hg h
  | setTableValue h =>
    obtain ⟨c, grid, hc, -, rfl⟩ := setTableValue_eq_ok h
    exact replaceGrid_grounded hg hc grid
  | resizeTable h =>
    obtain ⟨c, grid, hc, -, rfl⟩ := resizeTable_eq_ok h
    exact replaceGrid_grounded hg hc grid

end Sheet

end LiveSheet
