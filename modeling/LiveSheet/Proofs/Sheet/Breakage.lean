import LiveSheet.Proofs.Sheet.Circularity

namespace LiveSheet

open Relation

namespace Sheet

variable {s t : Sheet} {x y : CellId} {c d gone : Cell}

/-- Sound sheets in which the formulas name the same cells have the same links. -/
theorem Sound.linkedAs_eq (hs : s.Sound) (ht : t.Sound) (refers : t.Refers = s.Refers)
    (hc : s.cell? x = some c) (hd : t.cell? x = some d) : c.linkedAs d = c := by
  have hdeep : d.deep = c.deep := by
    apply IdSet.ext
    intro y
    rw [(hs.upToDate x).deep.mem_deep hc, (ht.upToDate x).deep.mem_deep hd, refers]
  have hback : d.referencedBy = c.referencedBy := by
    apply IdSet.ext
    intro y
    rw [hs.linked.inverse.mem_referencedBy hc, ht.linked.inverse.mem_referencedBy hd, refers]
  rw [Cell.linkedAs, hdeep, hback]

theorem Sound.cell?_eq_of_own (hs : s.Sound) (ht : t.Sound) (refers : t.Refers = s.Refers)
    (own : s.SameOwn t x) (hc : s.cell? x = some c) : t.cell? x = some c := by
  obtain ⟨d, hd, hown⟩ := own.symm.cell? hc
  rw [hd, Cell.eq_linkedAs (congrArg Cell.shallow hown.symm), hs.linkedAs_eq ht refers hc hd]

/-- A table refers to no cell. -/
def InertAt (s : Sheet) (x : CellId) : Prop :=
  ∀ c, s.cell? x = some c → c.isTable = true → c.references = ∅

def Inert (s : Sheet) : Prop :=
  ∀ x, s.InertAt x

theorem InertAt.of_sameStance (h : s.InertAt x) (same : s.SameStance t x) : t.InertAt x := by
  intro d hd ht
  obtain ⟨c, hc, hstance⟩ := same.cell? hd
  rw [Cell.references_eq_of_stance hstance]
  exact h c hc ((Cell.isTable_eq_of_stance hstance).symm.trans ht)

theorem Inert.of_textless (h : s.Inert) (same : t.textless = s.textless) : t.Inert := by
  intro x d hd ht
  obtain ⟨c, hc, htextless⟩ := cell?_of_through_eq Cell.textless (fun _ => rfl) same hd
  have htable : c.isTable = d.isTable := (congrArg Cell.isTable htextless :)
  have hrefs : c.references = d.references := (congrArg Cell.references htextless :)
  exact hrefs ▸ h x c hc (htable.trans ht)

/-- What depends on another cell is not a table. -/
theorem Inert.isTable (h : s.Inert) (hc : s.cell? x = some c) (hr : TransGen s.Refers x y) :
    c.isTable = false := by
  cases ht : c.isTable with
  | false => rfl
  | true =>
    have hleaf : c.references.ids = [] := congrArg IdSet.ids (h x c hc ht)
    exact absurd hr (not_reaches_of_references hc hleaf)

end Sheet

namespace Edit

open Sheet

variable {e : Edit} {id x : CellId} {b c d : Cell} {cause : FormulaError}

theorem Outcome.isTable (h : e.Outcome c d) : d.isTable = false := by
  cases h with
  | failed _ _ stance => exact Cell.isTable_eq_of_stance stance
  | circular _ _ _ stance => exact Cell.isTable_eq_of_stance stance
  | built _ _ stance => exact Cell.isTable_eq_of_stance stance

theorem applyFormula_inertAt (id : CellId) (h : e.sheet.InertAt x) :
    (e.applyFormula id).sheet.InertAt x := by
  by_cases hx : x = id
  · subst x
    rcases applyFormula_cases e id with ⟨c, hc, formula⟩ | ⟨hstay, -⟩
    · obtain ⟨d, hd, houtcome⟩ := applyFormula_outcome hc formula
      intro d' hd' ht
      obtain rfl := Option.some.inj (hd.symm.trans hd')
      rw [houtcome.isTable] at ht
      cases ht
    · rwa [hstay]
  · exact h.of_sameStance (applyFormula_others e hx)

theorem rebind_inert (h : e.sheet.Inert) (name : String) : (e.rebind name).sheet.Inert :=
  rebind_invariant Inert (fun _ id h x => applyFormula_inertAt id (h x)) h name

end Edit

namespace Sheet

variable {s t : Sheet} {id x : CellId} {c gone : Cell} {e : Edit}

theorem Inert.insertCell (h : s.Inert) (indexed : s.Indexed) (name formula : String)
    (content : Content) : (s.insertCell name formula content).Inert := by
  intro x c hc
  rw [indexed.cell?_insertCell] at hc
  split at hc
  next =>
    cases hc
    exact fun _ => rfl
  next => exact h x c hc

theorem Inert.claim {wanted : Option String} {name : String} (h : s.Inert)
    (hclaim : s.claimName wanted = .ok (name, t)) : t.Inert := by
  obtain ⟨-, n, rfl⟩ := claimName_ok hclaim
  exact h

theorem Inert.removeCell (h : s.Inert) (gone : Cell) : (s.removeCell gone).Inert := by
  intro x d hd ht
  obtain ⟨-, c, hc, rfl⟩ := cell?_of_removeCell hd
  rw [Cell.detach_isTable] at ht
  have hrefs := h x c hc ht
  unfold Cell.detach
  dsimp only
  split_ifs <;> simp only [hrefs] <;> rfl

theorem Inert.renamedTo (h : s.Inert) (hc : s.cell? c.id = some c) (new : String) :
    (s.renamedTo c new).sheet.Inert := by
  intro x d hd ht
  rw [cell?_renamedTo hc] at hd
  obtain ⟨b, hb, rfl⟩ := Option.map_eq_some_iff.mp hd
  exact h x b hb ht

theorem Inert.replaceGrid (h : s.Inert) (hc : s.cell? id = some c) (table : c.isTable = true)
    (grid : Grid) : (s.replaceGrid id grid).sheet.Inert := by
  let f : Cell → Cell := fun c => { c with content := .table grid }
  have hmodified : (s.modify id f).Inert := by
    intro x d hd ht
    by_cases hx : x = id
    · subst x
      rw [cell?_modify_self (f := f) (fun _ => rfl), hc] at hd
      cases hd
      exact h id c hc table
    · rw [cell?_modify_ne (f := f) (fun _ => rfl) s hx] at hd
      exact h x d hd ht
  exact fun x => (hmodified x).of_sameStance (Edit.refreshAll_sameStance _ _ x)

theorem Makes.inert (h : s.Makes e) (indexed : s.Indexed) (hs : s.Inert) : e.sheet.Inert := by
  cases h with
  | createCell h =>
    obtain ⟨name, t, hclaim, -, rfl⟩ := createCell_eq_ok h
    refine Edit.rebind_inert (fun x => Edit.applyFormula_inertAt t.nextId ?_) name
    exact (hs.claim hclaim).insertCell (indexed.claim hclaim) name _ _ x
  | createTable h =>
    obtain ⟨name, t, hclaim, -, rfl⟩ := createTable_eq_ok h
    exact Edit.rebind_inert ((hs.claim hclaim).insertCell (indexed.claim hclaim) name _ _) name
  | deleteCell h =>
    obtain ⟨gone, -, -, rfl⟩ := deleteCell_eq_ok h
    exact fun x => (hs.removeCell gone x).of_sameStance (Edit.refreshAll_sameStance _ _ x)
  | @setFormula id formula _ h =>
    obtain ⟨c, hc, hformula, rfl⟩ := setFormula_eq_ok h
    have hsame := hs.of_textless (Edit.setFormula_textless s.unchanged id formula)
    exact fun x => Edit.applyFormula_inertAt id (hsame x)
  | rename h =>
    rcases rename_eq_rebind h with rfl | ⟨c, hc, rfl, -, -, rfl⟩
    · exact hs
    · exact Edit.rebind_inert (hs.renamedTo hc _) _
  | setTableValue h =>
    obtain ⟨c, grid, hc, htable, rfl⟩ := setTableValue_eq_ok h
    exact hs.replaceGrid hc htable grid
  | resizeTable h =>
    obtain ⟨c, grid, hc, htable, rfl⟩ := resizeTable_eq_ok h
    exact hs.replaceGrid hc htable grid

end Sheet

namespace Edit

open Sheet

variable {e e' : Edit} {id x : CellId} {b c d : Cell} {cause : FormulaError}

/-- What depends on an error carries one, unless its formula or a cycle is at fault. -/
theorem Recomputed.of_belowError (h : e.Recomputed c d) (below : e.sheet.BelowError c)
    (classified : c.tree? = none → c.isStructural = true) :
    c.isStructural = true ∧ d = c ∨
      c.isStructural = false ∧ ∃ name, d = { c with error := some (.carried name) } := by
  cases h with
  | structural hs h => exact .inl ⟨hs, h⟩
  | treeless ht h => exact .inl ⟨classified ht, h⟩
  | below hsane _ _ _ name h => exact .inr ⟨hsane, name, h⟩
  | failed _ _ _ clear => exact absurd below clear
  | shown _ _ _ clear => exact absurd below clear

theorem failDefinition_refers (e : Edit) (id : CellId) (cause : FormulaError) :
    (e.failDefinition id cause).sheet.Refers = e.sheet.Refers := by
  have hwiring := (wiring_eq_of_outline (propagate_outline (e.faulted id cause) id)).trans
    (faulted_wiring e id cause)
  rw [failDefinition_eq, Refers, Refers, referencesOf_eq_of_wiring hwiring]

/-- A formula that fails leaves all cells as they were, but for its own cell and the errors of those
that depend on it. -/
theorem applyFormula_of_error (sound : e.sheet.Sound) (inert : e.sheet.Inert)
    (hc : e.sheet.cell? id = some c) (formula : c.isTable = false)
    (h : compile e.sheet.resolver c.formula = .error cause) :
    (e.applyFormula id).sheet.cell? id = some { c with
      content := .formula none, unresolved := cause.missing, error := some (.definition cause) } ∧
    ∀ x b, x ≠ id → e.sheet.cell? x = some b →
      (TransGen e.sheet.Refers x id ∧ b.isStructural = false → ∃ name,
        (e.applyFormula id).sheet.cell? x = some { b with error := some (.carried name) }) ∧
      (¬(TransGen e.sheet.Refers x id ∧ b.isStructural = false) →
        (e.applyFormula id).sheet.cell? x = some b) := by
  have heq : e.applyFormula id = e.failDefinition id cause := by
    simp [applyFormula, hc, formula, h]
  have hsound := applyFormula_sound_of_sound sound id
  have hrefers : (e.applyFormula id).sheet.Refers = e.sheet.Refers :=
    heq ▸ failDefinition_refers e id cause
  cases applyFormula_applied (sound.soundBut id) hc formula with
  | circular _ hcompile => cases h.symm.trans hcompile
  | built _ hcompile => cases h.symm.trans hcompile
  | failed cause' hcompile here below =>
    obtain rfl : cause = cause' := Except.error.inj (h.symm.trans hcompile)
    refine ⟨here, fun x b hx hb => ?_⟩
    by_cases hreach : TransGen e.sheet.Refers x id
    · obtain ⟨d, hd, hrecomputed⟩ := below x b hreach hb
      rw [sound.linkedAs_eq hsound hrefers hb hd] at hrecomputed
      have hbelow : (e.applyFormula id).sheet.BelowError b :=
        ⟨id, ((sound.upToDate x).deep.mem_deep hb).mpr hreach, by rw [hasError, here]; rfl⟩
      have hclassified := sound.classified x b hb (inert.isTable hb hreach)
      rcases hrecomputed.of_belowError hbelow hclassified.mp with ⟨hs, rfl⟩ | ⟨hs, name, rfl⟩
      · exact ⟨fun h => absurd h.2 (by simp [hs]), fun _ => hd⟩
      · exact ⟨fun _ => ⟨name, hd⟩, fun h => absurd ⟨hreach, hs⟩ h⟩
    · have hown := applyFormula_apart (sound.soundBut id) hx hreach
      exact ⟨fun h => absurd h.1 hreach, fun _ => sound.cell?_eq_of_own hsound hrefers hown hb⟩

end Edit

namespace Session

variable {s : Session} {id : CellId} {c : Cell}

theorem run_inert (settings : Settings) (operations : List Operation) :
    ((new settings).run operations).sheet.Inert :=
  (run_invariant (fun s => s.Sound ∧ s.Inert)
    (fun _ _ hs h => ⟨h.sound hs.1, h.inert hs.1.indexed hs.2⟩)
    ⟨.new settings, fun _ _ hc => (by cases hc)⟩ operations).2

theorem perform_setFormula (hc : s.sheet.cell? id = some c) (formula : c.isTable = false)
    (text : String) : s.perform (.setFormula id text) =
      s.accept .done ((s.sheet.unchanged.setFormula id text).applyFormula id) := by
  simp [perform_setFormula_eq, Sheet.setFormula, Sheet.cell, hc, formula, attempt]

/-- After any operations, a new formula that does not compile leaves all references and values as
they were. Its cell has a definition error, and what depends on the cell carries an error unless its
own formula or a cycle is at fault; all other cells are the same. -/
theorem run_broken (settings : Settings) (operations : List Operation) :
    let session := (new settings).run operations
    let s := session.sheet
    ∀ c ∈ s.cells, c.isTable = false → ∀ formula cause,
      compile s.resolver formula = .error cause →
      let step := session.perform (.setFormula c.id formula)
      let t := step.session.sheet
      step.reply = .done ∧ t.roster = s.roster ∧
      t.cell? c.id = some { c with
        formula := formula, content := .formula none, unresolved := cause.missing,
        error := some (.definition cause) } ∧
      ∀ d ∈ s.cells, d.id ≠ c.id →
        (TransGen s.Refers d.id c.id ∧ d.isStructural = false →
          ∃ name, t.cell? d.id = some { d with error := some (.carried name) }) ∧
        (¬(TransGen s.Refers d.id c.id ∧ d.isStructural = false) → t.cell? d.id = some d) := by
  intro session s c hc hformula formula cause hfails
  have hs : s.Sound := run_sound settings operations
  have hcell := Sheet.cell?_of_mem hs.indexed.nodup hc
  let e := s.unchanged.setFormula c.id formula
  have hroster : e.sheet.roster = s.roster := Sheet.roster_setFormula s c.id formula
  have hinert : e.sheet.Inert := (run_inert settings operations).of_textless
    (Edit.setFormula_textless s.unchanged c.id formula)
  rw [perform_setFormula hcell hformula]
  obtain ⟨hhere, hothers⟩ := Edit.applyFormula_of_error (hs.setFormula c.id formula) hinert
    (Sheet.cell?_setFormula hcell formula) hformula (by
      rw [Sheet.resolver_eq_of_roster hroster]
      exact hfails)
  rw [Sheet.refers_setFormula] at hothers
  refine ⟨rfl, (Edit.applyFormula_roster e c.id).trans hroster, hhere, fun d hd hne => ?_⟩
  apply hothers d.id d hne
  exact (Edit.setFormula_others s.unchanged formula hne).trans
    (Sheet.cell?_of_mem hs.indexed.nodup hd)

set_option maxRecDepth 20000 in
/-- The first of two cells, the second of which refers to it, gets the name of no cell as its
formula. -/
theorem run_broken_unknown :
    let session := (new .default).run
      [.createCell (some "a") (some "true"), .createCell (some "b") (some "a")]
    let s := session.sheet
    ∃ c ∈ s.cells, c.isTable = false ∧
      compile s.resolver "c" = .error (.unknownCell "c") ∧
      let step := session.perform (.setFormula c.id "c")
      let t := step.session.sheet
      step.reply = .done ∧ t.roster = s.roster ∧
      t.cell? c.id = some { c with
        formula := "c", content := .formula none, unresolved := ["c"],
        error := some (.definition (.unknownCell "c")) } ∧
      ∀ d ∈ s.cells, d.id ≠ c.id →
        (TransGen s.Refers d.id c.id ∧ d.isStructural = false →
          ∃ name, t.cell? d.id = some { d with error := some (.carried name) }) ∧
        (¬(TransGen s.Refers d.id c.id ∧ d.isStructural = false) → t.cell? d.id = some d) := by
  have hstate :
      let s := ((new .default).run
        [.createCell (some "a") (some "true"), .createCell (some "b") (some "a")]).sheet
      s.names = [("b", ⟨2⟩), ("a", ⟨1⟩)] ∧ s.cells.map Cell.isTable = [false, false] := by
    cbv
  -- The steps to the cell are for any such sheet, so that none of them runs the session again.
  have hfirst : ∀ s : Sheet, s.names = [("b", ⟨2⟩), ("a", ⟨1⟩)] →
      s.cells.map Cell.isTable = [false, false] →
        ∃ c ∈ s.cells, c.isTable = false ∧
          compile s.resolver "c" = .error (.unknownCell "c") := by
    intro s hnames htables
    obtain ⟨c, hc, hformula⟩ := List.mem_map.mp (htables ▸ List.mem_cons_self)
    have hunknown : s.resolver "c" = none := by
      rw [Sheet.resolver, Sheet.idOf?, hnames]
      rfl
    have hvalid : isValidName "c" = true := by decide
    exact ⟨c, hc, hformula,
      compile_unknown (parsePostfix_of_isValidName hvalid) hvalid hunknown⟩
  obtain ⟨hnames, htables⟩ := hstate
  intro session s
  obtain ⟨c, hc, hformula, hfails⟩ := hfirst s hnames htables
  exact ⟨c, hc, hformula, hfails, run_broken _ _ c hc hformula "c" _ hfails⟩

end Session

end LiveSheet
