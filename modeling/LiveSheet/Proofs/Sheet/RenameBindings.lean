import LiveSheet.Proofs.Sheet.LateBinding

namespace LiveSheet

namespace Sheet

variable {s : Sheet} {c d : Cell} {new : String} {e : Edit} {tree : Expr}

theorem rename_of_free (hc : s.cell? c.id = some c) (other : c.name ≠ new)
    (valid : isValidName new = true) (free : s.idOf? new = none) :
    s.rename c.id new = some ((s.renamedTo c new).rebind new) := by
  simp only [rename, hc, other, valid, free, ↓reduceIte]
  rfl

/-- A cell that gets another name gets one that is valid and free. -/
theorem rename_of_name_ne (hc : s.cell? c.id = some c) (other : c.name ≠ new)
    (h : s.rename c.id new = some e) : isValidName new = true ∧ s.idOf? new = none ∧
      e = (s.renamedTo c new).rebind new := by
  unfold rename at h
  rw [hc] at h
  dsimp only at h
  rw [if_neg other] at h
  split_ifs at h with hrefused
  simp only [Bool.or_eq_true, not_or, Bool.not_eq_true, Bool.not_eq_false'] at hrefused
  exact ⟨hrefused.1, by simpa using hrefused.2, (Option.some.inj h).symm⟩

theorem idOf?_renamedTo (c : Cell) (new name : String) :
    ((s.renamedTo c new).rebind new).sheet.idOf? name =
      if name = new then some c.id else if name = c.name then none else s.idOf? name := by
  rw [idOf?_eq_of_roster (Edit.rebind_roster _ new), idOf?_eq_of_roster (renamedTo_roster s c new)]
  exact idOf?_relabel s c.id c.name new name

theorem formula_renamedTo (new : String) (hc : s.cell? c.id = some c)
    (hd : s.cell? d.id = some d) :
    ∃ d', ((s.renamedTo c new).rebind new).sheet.cell? d.id = some d' ∧
      d'.formula = (s.afterRenaming c new d).formula := by
  have hformula := Edit.rebind_formula (s.renamedTo c new) new d.id
  rw [cell?_renamedTo hc, hd, Option.map_some, Option.map_some] at hformula
  exact Option.map_eq_some_iff.mp hformula

/-- A formula that compiles although its cell has a tree compiles to that tree, which names no cell
that is gone. -/
theorem Kept.live_of_compiles {settings : Settings} (hs : s.Kept settings)
    (hd : s.cell? d.id = some d) {kept : Expr} (ht : d.tree? = some kept)
    (compiles : compile s.resolver d.formula = .ok tree) :
    (∀ y ∈ kept.cells, y ∈ s.ids) ∧ tree.anonymous = kept.anonymous := by
  have htable : d.isTable = false := by
    cases hcontent : d.content with
    | formula t => simp [Cell.isTable, Cell.grid?, hcontent]
    | table g => simp [Cell.tree?, hcontent] at ht
  have halert := hs.alert.cells d.id d hd htable
  have hlive : ∀ y ∈ kept.cells, y ∈ s.ids := by
    refine (halert.whole kept ht).resolve_right fun hm => ?_
    exact hm.compile_ne_ok (fun name hn => halert.dead name hn (by simp)) tree compiles
  obtain ⟨e, he, hanon⟩ := (hs.phrased d.id d kept hd ht hlive).compiles
  obtain rfl := Except.ok.inj (compiles.symm.trans he)
  exact ⟨hlive, hanon⟩

/-- What a renaming does to a formula that compiled and whose cell is at no fault. -/
theorem Kept.rename_compiles {settings : Settings} (hs : s.Kept settings)
    (hc : s.cell? c.id = some c) (valid : isValidName new = true) (free : s.idOf? new = none)
    (hd : s.cell? d.id = some d) (htable : d.isTable = false) (sane : d.isStructural = false)
    (compiles : compile s.resolver d.formula = .ok tree) :
    ∃ tree', compile ((s.renamedTo c new).rebind new).sheet.resolver
      (s.afterRenaming c new d).formula = .ok tree' ∧ tree'.anonymous = tree.anonymous := by
  obtain ⟨kept, ht⟩ : ∃ kept, d.tree? = some kept := by
    refine Option.ne_none_iff_exists'.mp fun hnone => ?_
    rw [(hs.sound.classified d.id d hd htable).mp hnone] at sane
    cases sane
  obtain ⟨hlive, hanon⟩ := hs.live_of_compiles hd ht compiles
  obtain ⟨tree', he, hanon'⟩ := (reworded_inPhrase hs.sound hs.phrased hc valid free
    (idOf?_renamedTo c new) hd ht hlive).compiles
  refine ⟨tree', ?_, hanon'.trans hanon.symm⟩
  rw [← he, apply_ite Cell.formula]
  rfl

/-- Nothing tells that the formula of a cell that closes a cycle uses a name. -/
theorem Kept.rename_circular {settings : Settings} (hs : s.Kept settings)
    (hc : s.cell? c.id = some c) (hd : s.cell? d.id = some d) (htable : d.isTable = false)
    (circular : d.errorKind? = some .circularReference) :
    (s.afterRenaming c new d).formula = d.formula := by
  obtain ⟨hreferences, hresolved⟩ := (hs.alert.cells d.id d hd htable).cut circular
  have happart : d.id ∉ s.mayMention c := by
    rw [mem_mayMention_of_unresolved hs.sound hd hresolved]
    have hm := hs.sound.linked.inverse d.id c.id
    rw [referencesOf_of_cell? hd, dependentsOf_of_cell? hc, hreferences] at hm
    intro hr
    cases hm.mpr hr
  simp only [afterRenaming, happart, ↓reduceIte]

/-- A formula that stays as it is while a cell is renamed keeps its tree exactly if it does not
refer to that cell. -/
theorem Kept.compile_after_rename {settings : Settings} (hs : s.Kept settings)
    (hc : s.cell? c.id = some c) (other : c.name ≠ new) (free : s.idOf? new = none)
    {formula : String} (compiles : compile s.resolver formula = .ok tree) :
    (c.id ∉ tree.cells →
      compile ((s.renamedTo c new).rebind new).sheet.resolver formula = .ok tree) ∧
      (c.id ∈ tree.cells → ∀ tree',
        compile ((s.renamedTo c new).rebind new).sheet.resolver formula ≠ .ok tree') := by
  refine ⟨fun hc' => compile_congr compiles fun ref hr => ?_, fun hc' tree' he => ?_⟩
  · obtain ⟨-, hresolve⟩ := resolve_of_mem_refs compiles hr
    change s.idOf? ref.name = some ref.id at hresolve
    have hnew : ref.name ≠ new := by
      intro hn
      rw [hn, free] at hresolve
      cases hresolve
    have hold : ref.name ≠ c.name := by
      intro hn
      rw [hn, hs.sound.indexed.idOf?_name hc] at hresolve
      apply hc'
      rw [Option.some.inj hresolve, Expr.cells_eq]
      exact List.mem_map_of_mem hr
    rw [resolver, idOf?_renamedTo, if_neg hnew, if_neg hold, hresolve]
  · rw [Expr.cells_eq] at hc'
    obtain ⟨ref, hr, hid⟩ := List.mem_map.mp hc'
    have hname := name_eq_of_mem_refs hs.sound.indexed hc compiles hr hid
    obtain ⟨hvalid, -⟩ := resolve_of_mem_refs compiles hr
    apply (uses_of_mem_refs compiles hr).resolve_ne_none hvalid he
    rw [resolver, idOf?_renamedTo, hname, if_neg other, if_pos rfl]

end Sheet

set_option maxRecDepth 20000 in
/-- A cell whose formula is the name of the cell closes a cycle. -/
theorem Session.run_self :
    let s := ((Session.new .default).run [.createCell (some "a") (some "a")]).sheet
    ∃ c ∈ s.cells, c.isTable = false ∧ c.name = "a" ∧ c.errorKind? = some .circularReference ∧
      s.idOf? "b" = none ∧ compile s.resolver c.formula = .ok (.cell ⟨c.id, "a"⟩) := by
  intro s
  have hstate :
      let s := ((Session.new .default).run [.createCell (some "a") (some "a")]).sheet
      s.names = [("a", ⟨1⟩)] ∧
        s.cells.map (fun c => (c.id, c.name, c.formula, c.isTable, c.errorKind?)) =
        [(⟨1⟩, "a", "a", false, some .circularReference)] := by
    cbv
  obtain ⟨hnames, hcells⟩ := hstate
  obtain ⟨c, hc, hstate⟩ := List.mem_map.mp (hcells ▸ List.mem_singleton_self _)
  obtain ⟨hid, hname, hformula, htable, hkind⟩ : c.id = ⟨1⟩ ∧ c.name = "a" ∧ c.formula = "a" ∧
      c.isTable = false ∧ c.errorKind? = some .circularReference := by
    simpa only [Prod.mk.injEq] using hstate
  refine ⟨c, hc, htable, hname, hkind, ?_, ?_⟩
  · rw [Sheet.idOf?, hnames]
    rfl
  · rw [hformula, hid]
    apply compile_name (by cbv) (by decide)
    rw [Sheet.resolver, Sheet.idOf?, hnames]
    rfl

/-- After any operations, another name for a cell keeps what a formula that compiles is bound to,
unless the formula closes a cycle: such a formula stays as it is, and compiles only if it does not
refer to the renamed cell. A formula that compiles is at fault for nothing else, if generated names
are proper ones. -/
theorem Session.run_rename_compiles (settings : Settings) (operations : List Operation) :
    let s := ((Session.new settings).run operations).sheet
    ∀ c ∈ s.cells, ∀ new e, c.name ≠ new → s.rename c.id new = some e →
      ∀ d ∈ s.cells, d.isTable = false → ∀ tree, compile s.resolver d.formula = .ok tree →
        ∃ d', e.sheet.cell? d.id = some d' ∧
          (d.isStructural = false → ∃ tree', compile e.sheet.resolver d'.formula = .ok tree' ∧
            tree'.anonymous = tree.anonymous) ∧
          (d.errorKind? = some .circularReference → d'.formula = d.formula ∧
            (c.id ∉ tree.cells → compile e.sheet.resolver d'.formula = .ok tree) ∧
            (c.id ∈ tree.cells → ∀ tree', compile e.sheet.resolver d'.formula ≠ .ok tree')) ∧
          ((∀ n : Nat, isValidName (settings.namePrefix ++ toString n) = true) →
            d.errorKind? ≠ some .definition) := by
  intro s c hc new e hother hrename d hd htable tree hcompiles
  have hs : s.Kept settings := run_kept settings operations
  have hcell := Sheet.cell?_of_mem hs.sound.indexed.nodup hc
  have hdcell := Sheet.cell?_of_mem hs.sound.indexed.nodup hd
  obtain ⟨hvalid, hfree, rfl⟩ := Sheet.rename_of_name_ne hcell hother hrename
  obtain ⟨d', hd', hformula⟩ := Sheet.formula_renamedTo new hcell hdcell
  refine ⟨d', hd', fun hsane => ?_, fun hcircular => ?_, fun proper hdefinition => ?_⟩
  · rw [hformula]
    exact hs.rename_compiles hcell hvalid hfree hdcell htable hsane hcompiles
  · have hstays := hformula.trans (hs.rename_circular hcell hdcell htable hcircular)
    rw [hstays]
    exact ⟨rfl, hs.compile_after_rename hcell hother hfree hcompiles⟩
  · have halert := hs.alert.cells d.id d hdcell htable
    exact halert.hopeless (hs.settings_eq ▸ proper) hdefinition s.resolver
      (fun name hn => halert.dead name hn (by simp)) tree hcompiles

/-- A formula that refers to its own cell, which gets another name. -/
theorem Session.run_rename_compiles_self :
    let s := ((Session.new .default).run [.createCell (some "a") (some "a")]).sheet
    ∃ c ∈ s.cells, ∃ e, c.name ≠ "b" ∧ s.rename c.id "b" = some e ∧ c.isTable = false ∧
      compile s.resolver c.formula = .ok (.cell ⟨c.id, "a"⟩) ∧
      ∃ c', e.sheet.cell? c.id = some c' ∧
        (c.isStructural = false → ∃ tree', compile e.sheet.resolver c'.formula = .ok tree' ∧
          tree'.anonymous = (Expr.cell ⟨c.id, "a"⟩).anonymous) ∧
        (c.errorKind? = some .circularReference → c'.formula = c.formula ∧
          (c.id ∉ (Expr.cell ⟨c.id, "a"⟩).cells →
            compile e.sheet.resolver c'.formula = .ok (.cell ⟨c.id, "a"⟩)) ∧
          (c.id ∈ (Expr.cell ⟨c.id, "a"⟩).cells →
            ∀ tree', compile e.sheet.resolver c'.formula ≠ .ok tree')) ∧
        ((∀ n : Nat, isValidName (Settings.default.namePrefix ++ toString n) = true) →
          c.errorKind? ≠ some .definition) := by
  intro s
  obtain ⟨c, hc, htable, hname, -, hfree, hcompiles⟩ := run_self
  have hcell := Sheet.cell?_of_mem (run_kept _ _).sound.indexed.nodup hc
  have hother : c.name ≠ "b" := by simp [hname]
  have hrename := Sheet.rename_of_free hcell hother (by decide) hfree
  exact ⟨c, hc, _, hother, hrename, htable, hcompiles,
    run_rename_compiles _ _ c hc "b" _ hother hrename c hc htable _ hcompiles⟩

/-- A cell that is renamed to `b` keeps the formula `a`, which no longer compiles. -/
theorem Session.run_rename_circular :
    let s := ((Session.new .default).run [.createCell (some "a") (some "a")]).sheet
    ∃ c ∈ s.cells, ∃ e, c.name ≠ "b" ∧ s.rename c.id "b" = some e ∧ c.isTable = false ∧
      compile s.resolver c.formula = .ok (.cell ⟨c.id, "a"⟩) ∧
      ∃ c', e.sheet.cell? c.id = some c' ∧
        ∀ tree', compile e.sheet.resolver c'.formula ≠ .ok tree' := by
  intro s
  obtain ⟨c, hc, htable, hname, hkind, hfree, hcompiles⟩ := run_self
  have hs : s.Kept .default := run_kept _ _
  have hcell := Sheet.cell?_of_mem hs.sound.indexed.nodup hc
  have hother : c.name ≠ "b" := by simp [hname]
  obtain ⟨c', hc', hformula⟩ := Sheet.formula_renamedTo "b" hcell hcell
  refine ⟨c, hc, _, hother, Sheet.rename_of_free hcell hother (by decide) hfree, htable, hcompiles,
    c', hc', ?_⟩
  rw [hformula, hs.rename_circular hcell hcell htable hkind]
  exact (hs.compile_after_rename hcell hother hfree hcompiles).2 (by simp [Expr.cells])

end LiveSheet
