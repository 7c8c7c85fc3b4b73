import LiveSheet.Proofs.Sheet.Phrased

namespace LiveSheet

namespace Sheet

variable {s t : Sheet} {id x : CellId} {c gone : Cell}

theorem Phrased.new (settings : Settings) : (Sheet.new settings).Phrased := by
  intro x c tree hc
  cases hc

theorem InPhrase.of_eq {d : Cell} {tree : Expr} (h : s.InPhrase c tree)
    (formula : d.formula = c.formula) (resolved : d.unresolved = c.unresolved) :
    s.InPhrase d tree :=
  ⟨resolved.trans h.resolved, formula ▸ h.compiles⟩

/-- A cell stays in phrase where its references still have their names. -/
theorem InPhrase.keep {d : Cell} {tree : Expr} (h : s.InPhrase c tree)
    (formula : d.formula = c.formula) (resolved : d.unresolved = c.unresolved)
    (names : ∀ name y, s.idOf? name = some y → y ∈ tree.cells → t.idOf? name = some y) :
    t.InPhrase d tree := by
  obtain ⟨hu, e, he, hanon⟩ := h
  refine ⟨resolved.trans hu, e, ?_, hanon⟩
  rw [formula]
  apply compile_congr he
  intro ref hr
  apply names ref.name ref.id (resolve_of_mem_refs he hr).2
  rw [← Expr.cells_eq_of_anonymous hanon, Expr.cells_eq]
  exact List.mem_map_of_mem hr

theorem Phrased.claim {wanted : Option String} {name : String} (hp : s.Phrased)
    (h : s.claimName wanted = .ok (name, t)) : t.Phrased := by
  obtain ⟨-, n, rfl⟩ := claimName_ok h
  intro x c tree hc ht hlive
  obtain ⟨hu, he⟩ := hp x c tree hc ht hlive
  exact ⟨hu, he⟩

theorem insertCell_phrased {name : String} (hs : s.Sound) (hp : s.Phrased)
    (free : s.idOf? name = none) (formula : String) (content : Content) :
    (s.insertCell name formula content).PhrasedBut s.nextId := by
  intro x c tree hx hc ht hlive
  rw [hs.indexed.cell?_insertCell, if_neg hx] at hc
  have hold : ∀ y ∈ tree.cells, y ∈ s.ids := by
    intro y hy
    have hl := hlive y hy
    rw [ids_insertCell] at hl
    rcases List.mem_append.mp hl with hl | hl
    · exact hl
    · obtain rfl : y = s.nextId := by simpa using hl
      have hle := hs.bound.past x c tree hc ht _ hy
      simp [nextId] at hle
  apply (hp x c tree hc ht hold).keep rfl rfl
  exact fun n y hn _ => idOf?_insertCell_of_some free formula content hn

theorem createCell_phrased {name formula : Option String} {e : Edit} (hs : s.Sound)
    (hp : s.Phrased) (h : s.createCell name formula = .ok (id, e)) : e.sheet.Phrased := by
  obtain ⟨name, t, hc, -, rfl⟩ := createCell_eq_ok h
  have hbut := insertCell_phrased (hs.claim hc) (hp.claim hc) (claimName_free hc)
    (formula.getD t.settings.defaultFormula) (.formula none)
  have hcell := (hs.claim hc).indexed.cell?_insertCell_self name
    (formula.getD t.settings.defaultFormula) (.formula none)
  exact Edit.rebind_phrased (Edit.applyFormula_phrased hbut hcell rfl) name

theorem insertTable_phrased {name : String} (hs : s.Sound) (hp : s.Phrased)
    (free : s.idOf? name = none) (grid : Grid) :
    (s.insertCell name "" (.table grid)).Phrased := by
  intro x c tree hx ht
  by_cases hne : x = s.nextId
  · subst x
    obtain rfl := Option.some.inj ((hs.indexed.cell?_insertCell_self ..).symm.trans hx)
    cases ht
  · exact insertCell_phrased hs hp free "" (.table grid) x c tree hne hx ht

theorem createTable_phrased {name : Option String} {rows cols : Nat} {e : Edit} (hs : s.Sound)
    (hp : s.Phrased) (h : s.createTable name rows cols = .ok (id, e)) : e.sheet.Phrased := by
  obtain ⟨name, t, hc, -, rfl⟩ := createTable_eq_ok h
  exact Edit.rebind_phrased
    (insertTable_phrased (hs.claim hc) (hp.claim hc) (claimName_free hc) _) name

theorem removeCell_phrased (hs : s.Sound) (hp : s.Phrased) (hg : s.cell? gone.id = some gone) :
    (s.removeCell gone).Phrased := by
  intro x d tree hd ht hlive
  obtain ⟨-, c, hc, rfl⟩ := cell?_of_removeCell hd
  have htree : c.tree? = some tree := Cell.detach_tree? gone c ▸ ht
  have hgone : gone.id ∉ tree.cells := fun hm => (mem_ids_removeCell.mp (hlive _ hm)).2 rfl
  have hkept : ∀ y ∈ tree.cells, y ∈ s.ids := fun y hy => (mem_ids_removeCell.mp (hlive y hy)).1
  have hapart : c.id ∉ gone.referencedBy := by
    intro hm
    apply hgone
    apply ((hs.bound.references x c tree hc htree gone.id).mp ?_).1
    have hr := (hs.linked.inverse x gone.id).mpr
      (by rw [dependentsOf_of_cell? hg, ← cell?_id hc]; exact hm)
    rw [referencesOf_of_cell? hc] at hr
    exact hr
  have hphrase := hp x c tree hc htree hkept
  apply hphrase.keep (Cell.detach_formula gone c) (Cell.detach_eq_of_apart hapart).2
  intro n y hn hy
  rw [idOf?_removeCell, if_neg, hn]
  rintro rfl
  rw [hs.indexed.idOf?_name hg] at hn
  obtain rfl : gone.id = y := Option.some.inj hn
  exact hgone hy

theorem deleteCell_phrased {e : Edit} (hs : s.Sound) (hp : s.Phrased)
    (h : s.deleteCell id = .ok e) : e.sheet.Phrased := by
  obtain ⟨gone, -, hg, rfl⟩ := deleteCell_eq_ok h
  have houtline := Edit.outline_refreshAll
    ((s.removeCell gone).unchanged.announce gone.id .deleteRequested)
    ((s.removeCell gone).affectedOrder gone.referencedBy.ids)
  apply (Rescripts.of_outline houtline gone.id).phrased
    ((removeCell_phrased hs hp hg).phrasedBut gone.id)
  intro c tree hc
  have hl : gone.id ∈ (s.removeCell gone).ids := by
    have hm := mem_ids_iff.mpr ⟨c, hc⟩
    rw [(Rescripts.of_outline houtline gone.id).ids] at hm
    exact hm
  exact absurd rfl (mem_ids_removeCell.mp hl).2

theorem setFormula_phrased {formula : String} {e : Edit} (hp : s.Phrased)
    (h : s.setFormula id formula = .ok e) : e.sheet.Phrased := by
  obtain ⟨c, hc, ht, rfl⟩ := setFormula_eq_ok h
  refine Edit.applyFormula_phrased (fun x d tree hx hd htree hlive => ?_)
    (cell?_setFormula hc formula) ht
  have hroster := roster_setFormula s id formula
  rw [Edit.setFormula_others s.unchanged formula hx] at hd
  rw [ids_eq_of_roster hroster] at hlive
  apply (hp x d tree hd htree hlive).keep rfl rfl
  intro n y hn _
  rw [idOf?, names_eq_of_roster hroster]
  exact hn

theorem replaceGrid_phrased (hp : s.Phrased) (hc : s.cell? id = some c) (grid : Grid) :
    (s.replaceGrid id grid).sheet.Phrased := by
  let f : Cell → Cell := fun c => { c with content := .table grid }
  let e : Edit := (s.unchanged.modify id f).announce id (.tableChanged grid.rows grid.cols)
  have hcell : e.sheet.cell? id = some (f c) := Edit.modify_cell? (f := f) (fun _ => rfl) hc
  have houtline : (s.replaceGrid id grid).sheet.outline = e.sheet.outline :=
    Edit.outline_refreshAll e _
  have hrescripts : s.Rescripts (s.replaceGrid id grid).sheet id :=
    (Rescripts.modify (f := f) (fun _ => rfl) s id).trans (.of_outline houtline id)
  apply hrescripts.phrased (hp.phrasedBut id)
  intro d tree hd ht
  obtain ⟨d', hd', ho⟩ := cell?_outline houtline hd
  obtain rfl := Option.some.inj (hcell.symm.trans hd')
  rw [← Cell.tree?_eq_of_outline ho] at ht
  cases ht

/-- The cell with its references to `old` renamed. -/
def reworded (old new : String) (c : Cell) : Cell :=
  { c with formula := (renameReference? c.formula old new).getD c.formula }

theorem cell?_renameMentions (old new : String) (e : Edit) (id x : CellId) :
    (renameMentions old new e id).sheet.cell? x =
      (e.sheet.cell? x).map fun c => if x = id then reworded old new c else c := by
  have hid : ∀ c : Option Cell, (c.map fun c => if x = id then reworded old new c else c) =
      if x = id then c.map (reworded old new) else c := by
    intro c
    split <;> simp
  rw [hid]
  unfold renameMentions
  split
  next formula hf =>
    obtain ⟨c, hc, hr⟩ := Option.bind_eq_some_iff.mp hf
    by_cases hx : x = id
    · subst x
      have hm := Edit.modify_cell? (f := fun c => { c with formula := formula }) (fun _ => rfl) hc
      refine hm.trans ?_
      simp [hc, reworded, hr]
    · rw [if_neg hx]
      exact cell?_modify_ne (f := fun c => { c with formula := formula }) (fun _ => rfl) e.sheet hx
  next hf =>
    by_cases hx : x = id
    · subst hx
      rw [if_pos rfl]
      cases hc : e.sheet.cell? x with
      | none => rfl
      | some c =>
        rw [hc] at hf
        change renameReference? c.formula old new = none at hf
        simp [reworded, hf]
    · rw [if_neg hx]

/-- Renaming in several cells, each once, changes just their formulas. -/
theorem cell?_renameAll (old new : String) {ids : List CellId} (distinct : ids.Nodup) (e : Edit)
    (x : CellId) : (ids.foldl (renameMentions old new) e).sheet.cell? x =
      (e.sheet.cell? x).map fun c => if x ∈ ids then reworded old new c else c := by
  induction ids generalizing e with
  | nil => simp
  | cons id rest ih =>
    obtain ⟨hid, hrest⟩ := List.nodup_cons.mp distinct
    rw [List.foldl_cons, ih hrest, cell?_renameMentions, Option.map_map]
    congr 1
    funext c
    by_cases hx : x = id
    · subst x
      simp [hid]
    · simp [hx]

theorem mem_mayMention_of_unresolved (hs : s.Sound) {d : Cell} (hd : s.cell? x = some d)
    (resolved : d.unresolved = []) :
    x ∈ s.mayMention c ↔ x ∈ c.referencedBy := by
  rw [mayMention, IdSet.mem_union, IdSet.mem_ofList]
  refine ⟨fun h => h.resolve_right ?_, .inl⟩
  intro hm
  obtain ⟨d', hd', he⟩ := List.mem_map.mp hm
  obtain ⟨hcells, hopen⟩ := List.mem_filter.mp hd'
  have hsame := cell?_of_mem hs.indexed.nodup hcells
  rw [he, hd] at hsame
  obtain rfl := Option.some.inj hsame
  simp [resolved] at hopen

/-- The cells whose texts a renaming looks at are those with a tree that mentions the cell. -/
theorem mem_mayMention_iff (hs : s.Sound) (hc : s.cell? id = some c) {d : Cell} {tree : Expr}
    (hd : s.cell? x = some d) (ht : d.tree? = some tree) (resolved : d.unresolved = [])
    (live : ∀ y ∈ tree.cells, y ∈ s.ids) : x ∈ s.mayMention c ↔ id ∈ tree.cells := by
  rw [mem_mayMention_of_unresolved hs hd resolved]
  have hr := hs.linked.inverse x id
  rw [dependentsOf_of_cell? hc, referencesOf_of_cell? hd] at hr
  refine hr.symm.trans ((hs.bound.references x d tree hd ht id).trans ?_)
  exact ⟨And.left, fun h => ⟨h, live id h⟩⟩

/-- A compiled formula that refers to a cell does so by the name of the cell. -/
theorem name_eq_of_mem_refs {formula : String} {e : Expr} {ref : CellRef} (hs : s.Indexed)
    (hc : s.cell? id = some c) (he : compile s.resolver formula = .ok e) (hr : ref ∈ e.refs)
    (hid : ref.id = id) : ref.name = c.name := by
  obtain ⟨-, hresolve⟩ := resolve_of_mem_refs he hr
  obtain ⟨d, hd, hn⟩ := (hs.names ref.name ref.id).mp hresolve
  rw [hid, hc] at hd
  rw [← hn, Option.some.inj hd]

/-- A cell whose formula compiles is reworded exactly if it refers to the renamed cell. -/
theorem reworded_inPhrase (hs : s.Sound) (hp : s.Phrased) (hc : s.cell? id = some c)
    {new : String} (valid : isValidName new = true) (free : s.idOf? new = none)
    (names : ∀ name, t.idOf? name =
      if name = new then some id else if name = c.name then none else s.idOf? name)
    {d : Cell} {tree : Expr} (hd : s.cell? x = some d) (ht : d.tree? = some tree)
    (live : ∀ y ∈ tree.cells, y ∈ s.ids) :
    t.InPhrase (if x ∈ s.mayMention c then reworded c.name new d else d) tree := by
  obtain ⟨hu, e, he, hanon⟩ := hp x d tree hd ht live
  have hkept : ∀ n y, n ≠ c.name → s.idOf? n = some y → t.idOf? n = some y := by
    intro n y hn hy
    rw [names, if_neg, if_neg hn, hy]
    rintro rfl
    rw [free] at hy
    cases hy
  have hmention := mem_mayMention_iff hs hc hd ht hu live
  by_cases hm : x ∈ s.mayMention c
  · rw [if_pos hm]
    have hcell := hmention.mp hm
    rw [← Expr.cells_eq_of_anonymous hanon, Expr.cells_eq] at hcell
    obtain ⟨ref, hr, hid⟩ := List.mem_map.mp hcell
    obtain ⟨hvalid, hresolve⟩ := resolve_of_mem_refs he hr
    rw [name_eq_of_mem_refs hs.indexed hc he hr hid] at hvalid hresolve
    rw [hid] at hresolve
    refine ⟨hu, e.mapRefs (CellRef.renamed c.name new), ?_,
      (Expr.anonymous_renamed c.name new e).trans hanon⟩
    apply compile_renamed he hvalid valid hresolve
    · rw [resolver, names, if_pos rfl]
    · exact fun n y hn hy => hkept n y hn hy
  · rw [if_neg hm]
    refine ⟨hu, e, compile_congr he fun ref hr => ?_, hanon⟩
    obtain ⟨-, hresolve⟩ := resolve_of_mem_refs he hr
    apply hkept ref.name ref.id ?_ hresolve
    intro hn
    rw [hn] at hresolve
    obtain rfl : id = ref.id :=
      Option.some.inj ((hs.indexed.idOf?_name hc).symm.trans hresolve)
    apply hm
    apply hmention.mpr
    rw [← Expr.cells_eq_of_anonymous hanon, Expr.cells_eq]
    exact List.mem_map_of_mem hr

/-- The sheet in which a cell and all mentions of it have another name is in phrase. -/
theorem renameAll_phrased {new : String} (hs : s.Sound) (hp : s.Phrased)
    (hc : s.cell? id = some c) (hvalid : isValidName new = true) (hfree : s.idOf? new = none) :
    ((s.mayMention c).ids.foldl (renameMentions c.name new)
      ((s.relabel id c.name new).unchanged.announce id
        (.nameChanged c.name new))).sheet.Phrased := by
  let e₀ : Edit := (s.relabel id c.name new).unchanged.announce id (.nameChanged c.name new)
  let e₁ := (s.mayMention c).ids.foldl (renameMentions c.name new) e₀
  change e₁.sheet.Phrased
  have hdistinct : (s.mayMention c).ids.Nodup :=
    (s.mayMention c).ascending.imp fun hlt he => Nat.ne_of_lt hlt (congrArg CellId.number he)
  have hroster : e₁.sheet.roster = (s.relabel id c.name new).roster :=
    roster_eq_of_textless (renameAll_textless c.name new e₀ _)
  have hids : e₁.sheet.ids = s.ids := (ids_eq_of_roster hroster).trans
    (ids_modify (f := fun c => { c with name := new }) (fun _ => rfl) s id)
  intro x d₁ tree hd₁ ht hlive
  rw [hids] at hlive
  have hcell := cell?_renameAll c.name new hdistinct e₀ x
  rw [hd₁] at hcell
  obtain ⟨d₀, hd₀, hd⟩ := Option.map_eq_some_iff.mp hcell.symm
  -- The cell before it was relabelled has the same formula and tree.
  obtain ⟨d, hds, hformula, htree, hunresolved⟩ : ∃ d, s.cell? x = some d ∧
      d₀.formula = d.formula ∧ d₀.tree? = d.tree? ∧ d₀.unresolved = d.unresolved := by
    by_cases hx : x = id
    · subst x
      have hrelabel := cell?_relabel_self hc c.name new
      obtain rfl := Option.some.inj (hrelabel.symm.trans hd₀)
      exact ⟨c, hc, rfl, rfl, rfl⟩
    · exact ⟨d₀, (cell?_relabel_ne s hx c.name new).symm.trans hd₀, rfl, rfl, rfl⟩
  have htree' : d₁.tree? = d.tree? := by
    rw [← hd, ← htree]
    split <;> rfl
  have hphrase := reworded_inPhrase (t := e₁.sheet) hs hp hc hvalid hfree (fun name => by
    rw [idOf?, names_eq_of_roster hroster]
    exact idOf?_relabel s id c.name new name) hds (htree'.symm.trans ht) hlive
  by_cases hm : x ∈ s.mayMention c
  · rw [if_pos hm] at hphrase
    rw [if_pos (IdSet.mem_iff.mp hm)] at hd
    subst hd
    exact hphrase.of_eq (by simp only [reworded, hformula]) hunresolved
  · rw [if_neg hm] at hphrase
    rw [if_neg (mt IdSet.mem_iff.mpr hm)] at hd
    subst hd
    exact hphrase.of_eq hformula hunresolved

theorem rename_phrased {new : String} {e : Edit} (hs : s.Sound) (hp : s.Phrased)
    (h : s.rename id new = some e) : e.sheet.Phrased := by
  rcases rename_eq_some h with rfl | ⟨c, hc, hvalid, hfree, rfl⟩
  · exact hp
  · exact Edit.rebind_phrased (renameAll_phrased hs hp hc hvalid hfree) new

end Sheet

theorem Sheet.Makes.phrased {s : Sheet} {e : Edit} (h : s.Makes e) (hs : s.Sound)
    (hp : s.Phrased) : e.sheet.Phrased := by
  cases h with
  | createCell h => exact createCell_phrased hs hp h
  | createTable h => exact createTable_phrased hs hp h
  | deleteCell h => exact deleteCell_phrased hs hp h
  | setFormula h => exact setFormula_phrased hp h
  | rename h => exact rename_phrased hs hp h
  | setTableValue h =>
    obtain ⟨c, grid, hc, -, rfl⟩ := setTableValue_eq_ok h
    exact replaceGrid_phrased hp hc grid
  | resizeTable h =>
    obtain ⟨c, grid, hc, -, rfl⟩ := resizeTable_eq_ok h
    exact replaceGrid_phrased hp hc grid

theorem Session.run_sound_phrased (settings : Settings) (operations : List Operation) :
    ((Session.new settings).run operations).sheet.Sound ∧
      ((Session.new settings).run operations).sheet.Phrased :=
  run_invariant (fun s => s.Sound ∧ s.Phrased)
    (fun _ _ hs h => ⟨h.sound hs.1, h.phrased hs.1 hs.2⟩)
    ⟨.new settings, .new settings⟩ operations

/-- After any operations, the formula of a cell compiles to the tree of the cell, up to the names
in its references, and the references of the cell are those of the tree, unless the tree names a
cell that is gone. -/
theorem Session.run_phrased (settings : Settings) (operations : List Operation) :
    let s := ((Session.new settings).run operations).sheet
    (∀ c ∈ s.cells, ∀ tree, c.tree? = some tree → (∀ x ∈ tree.cells, x ∈ s.ids) →
      ∃ e, compile s.resolver c.formula = .ok e ∧ e.anonymous = tree.anonymous) ∧
      ∀ c ∈ s.cells, ∀ tree, c.tree? = some tree → (∀ x ∈ tree.cells, x ∈ s.ids) →
        c.references = tree.references := by
  intro s
  obtain ⟨hs, hp⟩ : s.Sound ∧ s.Phrased := run_sound_phrased settings operations
  refine ⟨fun c hc tree ht hlive => ?_, fun c hc tree ht hlive => ?_⟩
  · exact (hp c.id c tree (Sheet.cell?_of_mem hs.indexed.nodup hc) ht hlive).compiles
  · have hcell := Sheet.cell?_of_mem hs.indexed.nodup hc
    apply IdSet.ext
    intro x
    rw [hs.bound.references c.id c tree hcell ht x, Expr.mem_references]
    exact ⟨And.left, fun hx => ⟨hx, hlive x hx⟩⟩

end LiveSheet
