import LiveSheet.Proofs.Sheet.Applied
import LiveSheet.Proofs.Sheet.LateBinding

namespace LiveSheet

open Relation

namespace Sheet

variable {s : Sheet} {id y : CellId} {formula : String}

/-- The formula compiles to a tree that refers to the cell itself, or to one that depends on it. -/
def Closes (s : Sheet) (id : CellId) (formula : String) : Prop :=
  ∃ tree, compile s.resolver formula = .ok tree ∧
    (id ∈ tree.references ∨ ∃ r ∈ tree.references, TransGen s.Refers r id)

theorem closes_iff : s.Closes id formula ↔ ∃ tree, compile s.resolver formula = .ok tree ∧
    ∃ r ∈ tree.cells, ReflTransGen s.Refers r id := by
  apply exists_congr
  intro tree
  apply and_congr_right
  intro _
  simp only [Expr.mem_references, reflTransGen_iff_eq_or_transGen]
  constructor
  · rintro (hself | ⟨r, hr, hback⟩)
    · exact ⟨id, hself, .inl rfl⟩
    · exact ⟨r, hr, .inr hback⟩
  · rintro ⟨r, hr, rfl | hback⟩
    · exact .inl hr
    · exact .inr ⟨r, hr, hback⟩

/-- The name of a cell that refers to another one closes a cycle there. -/
theorem closes_of_name {name : String} (valid : isValidName name = true)
    (h : s.idOf? name = some y) (back : s.Refers y id) : s.Closes id name := by
  have hcompile : compile s.resolver name = .ok (.cell ⟨y, name⟩) :=
    compile_name (parsePostfix_of_isValidName valid) valid h
  refine ⟨_, hcompile, .inr ⟨y, ?_, .single back⟩⟩
  simp [Expr.mem_references, Expr.cells]

end Sheet

namespace Edit

open Sheet

variable {e : Edit} {id x : CellId} {b c d : Cell} {tree : Expr}

theorem applyFormula_refers (e : Edit) (hx : x ≠ id) (y : CellId) :
    e.sheet.Refers x y ↔ (e.applyFormula id).sheet.Refers x y := by
  change y ∈ e.sheet.referencesOf x ↔ y ∈ (e.applyFormula id).sheet.referencesOf x
  rw [(applyFormula_others e hx).referencesOf]

/-- A formula that closes a cycle is planted only to be taken out again. -/
theorem applyFormula_eq_breakCycle (sound : e.sheet.Sound) (hc : e.sheet.cell? id = some c)
    (formula : c.isTable = false) (closes : e.sheet.Closes id c.formula) :
    ∃ tree, e.applyFormula id = (e.planted id tree).breakCycle id := by
  obtain ⟨tree, hcompile, hclose⟩ := closes_iff.mp closes
  have hmem := (mem_collectDeep_planted (sound.soundBut id) hc).mpr hclose
  refine ⟨tree, ?_⟩
  simp only [applyFormula, hc, formula, Bool.false_eq_true, ↓reduceIte, hcompile, settle_eq, hmem]

theorem applyFormula_cell?_of_closes (sound : e.sheet.Sound) (hc : e.sheet.cell? id = some c)
    (formula : c.isTable = false) (closes : e.sheet.Closes id c.formula) :
    ∃ referencedBy, (e.applyFormula id).sheet.cell? id = some { c with
      content := .formula none, unresolved := [], references := ∅, deep := ∅,
      referencedBy := referencedBy, error := some (.circular c.name) } := by
  obtain ⟨tree, heq⟩ := applyFormula_eq_breakCycle sound hc formula closes
  obtain ⟨back, hplanted⟩ := planted_cell? hc tree
  have hids : (e.planted id tree).sheet.ids.Nodup :=
    (planted_alters e id tree).ids_eq ▸ sound.indexed.nodup
  rw [heq]
  exact breakCycle_cell? hids hplanted

/-- A cell is circular once it is settled exactly if its formula closes a cycle. -/
theorem applyFormula_circular_iff (sound : e.sheet.Sound) (hc : e.sheet.cell? id = some c)
    (formula : c.isTable = false) :
    (e.applyFormula id).sheet.IsCircular id ↔ e.sheet.Closes id c.formula := by
  constructor
  · rintro ⟨d, hd, hk⟩
    cases applyFormula_applied (sound.soundBut id) hc formula with
    | failed cause _ here _ =>
      obtain rfl := Option.some.inj (here.symm.trans hd)
      cases hk
    | circular tree hcompile closes => exact closes_iff.mpr ⟨tree, hcompile, closes⟩
    | built tree _ d' error sane here recomputed _ =>
      obtain rfl := Option.some.inj (here.symm.trans hd)
      rw [Cell.errorKind?_iff_of_stance recomputed.stance_eq (.inr rfl)] at hk
      have hcircular := Cell.isStructural_iff.mpr (.inr hk)
      rw [Cell.isStructural, sane] at hcircular
      cases hcircular
  · intro closes
    obtain ⟨back, hhere⟩ := applyFormula_cell?_of_closes sound hc formula closes
    exact ⟨_, hhere, rfl⟩

/-- A cell that is left without references is gone from the back references of all cells. -/
theorem referencedBy_of_leaf (sound : e.sheet.Sound)
    (hc : (e.applyFormula id).sheet.cell? id = some c) (leaf : c.references.ids = [])
    (hb : e.sheet.cell? x = some b) (hd : (e.applyFormula id).sheet.cell? x = some d) :
    d.referencedBy = b.referencedBy.erase id := by
  have hmutual := (applyFormula_sound_of_sound sound id).linked.inverse
  apply IdSet.ext
  intro y
  rw [hmutual.mem_referencedBy hd, IdSet.mem_erase, sound.linked.inverse.mem_referencedBy hb]
  by_cases hy : y = id
  · subst y
    simp only [ne_eq, not_true_eq_false, and_false, iff_false]
    exact fun h => not_reaches_of_references hc leaf (.single h)
  · simp only [ne_eq, hy, not_false_eq_true, and_true]
    exact (applyFormula_refers e hy x).symm

/-- What closes a cycle loses its own references, and nothing else changes but what follows from
these. -/
theorem applyFormula_closes (sound : e.sheet.Sound) (hc : e.sheet.cell? id = some c)
    (formula : c.isTable = false) (closes : e.sheet.Closes id c.formula) :
    (e.applyFormula id).sheet.cell? id = some { c with
      content := .formula none, unresolved := [], references := ∅, deep := ∅,
      error := some (.circular c.name) } ∧
    ∀ x b, x ≠ id → e.sheet.cell? x = some b →
      ∃ deep, (e.applyFormula id).sheet.cell? x = some { b with
        deep := deep, referencedBy := b.referencedBy.erase id } ∧
        (¬TransGen e.sheet.Refers x id → deep = b.deep) := by
  obtain ⟨back, hhere⟩ := applyFormula_cell?_of_closes sound hc formula closes
  have hback : ∀ x b d, e.sheet.cell? x = some b →
      (e.applyFormula id).sheet.cell? x = some d → d.referencedBy = b.referencedBy.erase id :=
    fun x b d hb hd => referencedBy_of_leaf sound hhere rfl hb hd
  refine ⟨?_, fun x b hx hb => ?_⟩
  · have hself : id ∉ c.referencedBy := by
      rw [sound.linked.inverse.mem_referencedBy hc]
      exact fun h => sound.linked.acyclic id (.single h)
    have hkeep : back = c.referencedBy :=
      (hback id c _ hc hhere).trans (IdSet.erase_of_not_mem hself)
    rw [hhere, hkeep]
  · obtain ⟨tree, heq⟩ := applyFormula_eq_breakCycle sound hc formula closes
    obtain ⟨d, hd, hlinked⟩ := planted_breakCycle_linkedAs tree hx hb
    rw [← heq] at hd
    refine ⟨d.deep, ?_, fun apart => ?_⟩
    · rw [hd, ← hback x b d hb hd]
      exact congrArg some hlinked
    · obtain ⟨b', hb', hown⟩ := (applyFormula_apart (sound.soundBut id) hx apart).cell? hd
      obtain rfl := Option.some.inj (hb.symm.trans hb')
      exact (congrArg Cell.deep hown :)

end Edit

namespace Sheet

variable {s : Sheet} {id : CellId} {c : Cell} {e : Edit} {formula : String}

/-- The text of a formula has no part in what the cells refer to and how they are named. -/
theorem closes_iff_of_textless {t : Sheet} (h : t.textless = s.textless) :
    t.Closes id formula ↔ s.Closes id formula := by
  rw [Closes, Closes, refers_eq_of_textless h, resolver_eq_of_roster (roster_eq_of_textless h)]

/-- A cell with a new formula is circular exactly if that closes a cycle. -/
theorem setFormula_circular_iff (hs : s.Sound) (h : s.setFormula id formula = .ok e) :
    e.sheet.IsCircular id ↔ s.Closes id formula := by
  obtain ⟨c, hc, hformula, rfl⟩ := setFormula_eq_ok h
  rw [Edit.applyFormula_circular_iff (hs.setFormula id formula) (cell?_setFormula hc formula)
    hformula]
  exact closes_iff_of_textless (Edit.setFormula_textless s.unchanged id formula)

/-- A formula that closes a cycle takes its cell out of the graph. -/
theorem setFormula_closes (hs : s.Sound) (hc : s.cell? id = some c)
    (h : s.setFormula id formula = .ok e) (closes : s.Closes id formula) :
    e.sheet.cell? id = some { c with
      formula := formula, content := .formula none, error := some (.circular c.name),
      references := ∅, deep := ∅, unresolved := [] } ∧
    ∀ x b, x ≠ id → s.cell? x = some b → ∃ deep, e.sheet.cell? x = some { b with
        deep := deep, referencedBy :=
          if x ∈ c.references then b.referencedBy.erase id else b.referencedBy } ∧
      (¬TransGen s.Refers x id → deep = b.deep) := by
  obtain ⟨c', hc', hformula, rfl⟩ := setFormula_eq_ok h
  obtain rfl := Option.some.inj (hc.symm.trans hc')
  have htextless := Edit.setFormula_textless s.unchanged id formula
  obtain ⟨hhere, hothers⟩ := Edit.applyFormula_closes (hs.of_textless htextless.symm)
    (cell?_setFormula hc formula) hformula ((closes_iff_of_textless htextless).mpr closes)
  refine ⟨hhere, fun x b hx hb => ?_⟩
  have hkeep := Edit.setFormula_others s.unchanged formula hx
  obtain ⟨deep, hd, hdeep⟩ := hothers x b hx (hkeep.trans hb)
  refine ⟨deep, ?_, fun apart => hdeep ?_⟩
  · split
    next => exact hd
    next hreference =>
      have haway : id ∉ b.referencedBy := by
        rw [hs.linked.inverse.mem_referencedBy hb, Refers, Leads, referencesOf_of_cell? hc]
        exact hreference
      rwa [IdSet.erase_of_not_mem haway] at hd
  · rwa [refers_eq_of_textless htextless]

end Sheet

/-- After any operations, a cell with a new formula is circular exactly if the formula compiles and
closes a cycle of references as they were. Such a cell has no references, direct or transitive; all
other cells keep their names, formulas, trees, values, errors and references. Only what depends on
the cell has other transitive references, and only what it referred to loses a back reference. -/
theorem Session.run_circular (settings : Settings) (operations : List Operation) :
    let session := (Session.new settings).run operations
    let s := session.sheet
    ∀ c ∈ s.cells, c.isTable = false → ∀ formula,
      let step := session.perform (.setFormula c.id formula)
      let t := step.session.sheet
      step.reply = .done ∧ (t.IsCircular c.id ↔ s.Closes c.id formula) ∧
      (s.Closes c.id formula → t.roster = s.roster ∧
        t.cell? c.id = some { c with
          formula := formula, content := .formula none, error := some (.circular c.name),
          references := ∅, deep := ∅, unresolved := [] } ∧
        ∀ d ∈ s.cells, d.id ≠ c.id → ∃ deep, t.cell? d.id = some { d with
            deep := deep, referencedBy :=
              if d.id ∈ c.references then d.referencedBy.erase c.id else d.referencedBy } ∧
          (¬TransGen s.Refers d.id c.id → deep = d.deep)) := by
  intro session s c hc hformula formula
  have hs : s.Sound := run_sound settings operations
  have hcell := Sheet.cell?_of_mem hs.indexed.nodup hc
  obtain ⟨e, he⟩ : ∃ e, s.setFormula c.id formula = .ok e := by
    simp [Sheet.setFormula, Sheet.cell, hcell, hformula]
  have hperform : session.perform (.setFormula c.id formula) = session.accept .done e := by
    rw [perform_setFormula_eq, he]
    rfl
  rw [hperform]
  refine ⟨rfl, Sheet.setFormula_circular_iff hs he, fun hcloses => ?_⟩
  obtain ⟨hhere, hothers⟩ := Sheet.setFormula_closes hs hcell he hcloses
  refine ⟨Sheet.setFormula_roster he, hhere, fun d hd hne => ?_⟩
  exact hothers d.id d hne (Sheet.cell?_of_mem hs.indexed.nodup hd)

set_option maxRecDepth 20000 in
/-- Of two cells, the first gets the name of the second as its formula, which is that
of the first. -/
theorem Session.run_circular_mutual :
    let session := (Session.new .default).run
      [.createCell (some "a") (some "true"), .createCell (some "b") (some "a")]
    let s := session.sheet
    ∃ c ∈ s.cells, c.isTable = false ∧ s.Closes c.id "b" ∧
      let step := session.perform (.setFormula c.id "b")
      let t := step.session.sheet
      step.reply = .done ∧ (t.IsCircular c.id ↔ s.Closes c.id "b") ∧
      (s.Closes c.id "b" → t.roster = s.roster ∧
        t.cell? c.id = some { c with
          formula := "b", content := .formula none, error := some (.circular c.name),
          references := ∅, deep := ∅, unresolved := [] } ∧
        ∀ d ∈ s.cells, d.id ≠ c.id → ∃ deep, t.cell? d.id = some { d with
            deep := deep, referencedBy :=
              if d.id ∈ c.references then d.referencedBy.erase c.id else d.referencedBy } ∧
          (¬TransGen s.Refers d.id c.id → deep = d.deep)) := by
  have hstate :
      let s := ((Session.new .default).run
        [.createCell (some "a") (some "true"), .createCell (some "b") (some "a")]).sheet
      s.names = [("b", ⟨2⟩), ("a", ⟨1⟩)] ∧ s.referencesOf ⟨2⟩ = [⟨1⟩] ∧
        s.cells.map (fun c => (c.id, c.isTable)) = [(⟨1⟩, false), (⟨2⟩, false)] := by
    cbv
  -- The steps to the cell are for any such sheet, so that none of them runs the session again.
  have hfirst : ∀ s : Sheet, s.names = [("b", ⟨2⟩), ("a", ⟨1⟩)] → s.referencesOf ⟨2⟩ = [⟨1⟩] →
      s.cells.map (fun c => (c.id, c.isTable)) = [(⟨1⟩, false), (⟨2⟩, false)] →
        ∃ c ∈ s.cells, c.isTable = false ∧ s.Closes c.id "b" := by
    intro s hnames hrefers hcells
    obtain ⟨c, hc, hcell⟩ := List.mem_map.mp (hcells ▸ List.mem_cons_self)
    obtain ⟨hid, hformula⟩ : c.id = ⟨1⟩ ∧ c.isTable = false := by
      simpa only [Prod.mk.injEq] using hcell
    have hresolve : s.idOf? "b" = some ⟨2⟩ := by
      rw [Sheet.idOf?, hnames]
      rfl
    have hback : c.id ∈ s.referencesOf ⟨2⟩ := by simp [hrefers, hid]
    exact ⟨c, hc, hformula, Sheet.closes_of_name (by decide) hresolve hback⟩
  obtain ⟨hnames, hrefers, hcells⟩ := hstate
  intro session s
  obtain ⟨c, hc, hformula, hcloses⟩ := hfirst s hnames hrefers hcells
  exact ⟨c, hc, hformula, hcloses, run_circular _ _ c hc hformula "b"⟩

end LiveSheet
