import LiveSheet.Proofs.Formula.Failing
import LiveSheet.Proofs.Number.Zeros
import LiveSheet.Proofs.Sheet.Applied
import LiveSheet.Proofs.Sheet.LateBinding

namespace LiveSheet

open Relation

namespace Sheet

variable {s t u : Sheet} {id x y : CellId} {c d : Cell}

/-- The formula of the cell `a` compiles, and refers to the cell `b`. -/
def Mentions (s : Sheet) (a b : CellId) : Prop :=
  ∃ c tree, s.cell? a = some c ∧ compile s.resolver c.formula = .ok tree ∧ b ∈ tree.cells

/-- All names and all formulas of a sheet are also in the other one. -/
structure Extends (s t : Sheet) : Prop where
  names : ∀ name y, s.idOf? name = some y → t.idOf? name = some y
  formulas : ∀ x c, s.cell? x = some c → ∃ d, t.cell? x = some d ∧ d.formula = c.formula

namespace Extends

variable (h : s.Extends t)
include h

theorem compile_eq {formula : String} {tree : Expr} (he : compile s.resolver formula = .ok tree) :
    compile t.resolver formula = .ok tree :=
  compile_congr he fun ref hr => h.names ref.name ref.id (resolve_of_mem_refs he hr).2

theorem compile_error_eq {formula : String} {cause : FormulaError}
    (he : compile s.resolver formula = .error cause)
    (missing : ∀ name, cause = .unknownCell name → t.idOf? name = none) :
    compile t.resolver formula = .error cause := by
  refine compile_error_under (fun name hn => ?_) missing he
  obtain ⟨y, hy⟩ := Option.ne_none_iff_exists'.mp hn
  exact Option.ne_none_iff_exists'.mpr ⟨y, h.names name y hy⟩

theorem mentions (hm : s.Mentions x y) : t.Mentions x y := by
  obtain ⟨c, tree, hc, he, hy⟩ := hm
  obtain ⟨d, hd, hformula⟩ := h.formulas x c hc
  exact ⟨d, tree, hd, hformula ▸ h.compile_eq he, hy⟩

end Extends

theorem Extends.applyFormula (e : Edit) (id : CellId) :
    e.sheet.Extends (e.applyFormula id).sheet := by
  refine ⟨fun name y hy => ?_, fun x c hc => ?_⟩
  · rwa [idOf?_eq_of_roster (Edit.applyFormula_roster e id)]
  · have hformula := Edit.applyFormula_formula e id x
    rw [hc] at hformula
    exact Option.map_eq_some_iff.mp hformula

theorem Extends.insertCell {name : String} (indexed : s.Indexed) (free : s.idOf? name = none)
    (formula : String) (content : Content) : s.Extends (s.insertCell name formula content) := by
  refine ⟨fun n y hy => ?_, fun x c hc => ⟨c, ?_, rfl⟩⟩
  · exact idOf?_insertCell_of_some free formula content hy
  · rw [indexed.cell?_insertCell_other]
    · exact hc
    · rintro rfl
      rw [indexed.cell?_nextId] at hc
      cases hc

end Sheet

/-- The cell has a formula without a tree, and has never had a tree. -/
structure Cell.Bare (c : Cell) : Prop where
  content : c.content = .formula none
  references : c.references = ∅
  value : c.value = default

/-- The cell has the tree of its formula. -/
structure Cell.Grown (s : Sheet) (tree : Expr) (c : Cell) : Prop where
  content : c.content = .formula (some tree)
  compiles : compile s.resolver c.formula = .ok tree
  resolved : c.unresolved = []

/-- How a cell stands that has been given its formula once: with the fault of its formula, in a
cycle of references, or with a tree, and then in error for the sake of another cell, with the fault
of the tree, or with its value. -/
inductive Cell.Pristine (s : Sheet) (c : Cell) : Prop
  | failed (bare : c.Bare) (cause : FormulaError) (error : c.error = some (.definition cause))
    (missing : c.unresolved = cause.missing)
    -- A formula that fails for a name is settled anew only after a cell of that name is there.
    (compiles : (∀ name, cause = .unknownCell name → s.idOf? name = none) →
      compile s.resolver c.formula = .error cause)
  | circular (bare : c.Bare) (name : String) (error : c.error = some (.circular name))
    (resolved : c.unresolved = []) (cycle : TransGen s.Mentions c.id c.id)
  | carried (tree : Expr) (grown : c.Grown s tree) (name : String)
    (error : c.error = some (.carried name)) (value : c.value = default)
  | evaluated (tree : Expr) (grown : c.Grown s tree) (clear : ¬s.BelowError c)
    (cause : FormulaError) (fails : tree.eval s.context = .error cause)
    (error : c.error = some (.evaluation cause)) (value : c.value = default)
  | shown (tree : Expr) (grown : c.Grown s tree) (clear : ¬s.BelowError c) (v : Value)
    (gives : tree.eval s.context = .ok v) (error : c.error = none) (value : c.value = v.plain)

namespace Cell

variable {s t : Sheet} {c d : Cell} {tree : Expr}

theorem Grown.tree? (h : c.Grown s tree) : c.tree? = some tree := by
  rw [Cell.tree?, h.content]

theorem Grown.isTable (h : c.Grown s tree) : c.isTable = false := by
  rw [Cell.isTable, grid?, h.content]
  rfl

theorem Bare.tree? (h : c.Bare) : c.tree? = none := by
  rw [Cell.tree?, h.content]

theorem Bare.isTable (h : c.Bare) : c.isTable = false := by
  rw [Cell.isTable, grid?, h.content]
  rfl

theorem Pristine.bare_or_grown (h : c.Pristine s) : c.Bare ∨ ∃ tree, c.Grown s tree := by
  cases h with
  | failed bare => exact .inl bare
  | circular bare => exact .inl bare
  | carried tree grown => exact .inr ⟨tree, grown⟩
  | evaluated tree grown => exact .inr ⟨tree, grown⟩
  | shown tree grown => exact .inr ⟨tree, grown⟩

theorem Pristine.isTable (h : c.Pristine s) : c.isTable = false := by
  rcases h.bare_or_grown with hbare | ⟨tree, hgrown⟩
  · exact hbare.isTable
  · exact hgrown.isTable

/-- A cell with a tree that depends on a cell in error carries the error. -/
theorem Pristine.carried_of_belowError (h : c.Pristine s) (grown : c.Grown s tree)
    (below : s.BelowError c) : c.value = default ∧ ∃ name, c.error = some (.carried name) := by
  have htree := grown.tree?
  cases h with
  | failed bare => cases bare.tree?.symm.trans htree
  | circular bare => cases bare.tree?.symm.trans htree
  | carried _ _ name error value => exact ⟨value, name, error⟩
  | evaluated _ _ clear => exact absurd below clear
  | shown _ _ clear => exact absurd below clear

/-- A cell that waits for a name has a formula that failed. -/
theorem Pristine.bare_of_unresolved (h : c.Pristine s) (waits : c.unresolved ≠ []) : c.Bare := by
  cases h with
  | failed bare => exact bare
  | circular bare => exact bare
  | carried _ grown => exact absurd grown.resolved waits
  | evaluated _ grown => exact absurd grown.resolved waits
  | shown _ grown => exact absurd grown.resolved waits

theorem Pristine.cycle (h : c.Pristine s) (circular : c.errorKind? = some .circularReference) :
    TransGen s.Mentions c.id c.id := by
  cases h with
  | circular _ _ _ _ cycle => exact cycle
  | failed _ _ error => simp [errorKind?, error, CellError.kind] at circular
  | carried _ _ _ error => simp [errorKind?, error, CellError.kind] at circular
  | evaluated _ _ _ _ _ error => simp [errorKind?, error, CellError.kind] at circular
  | shown _ _ _ _ _ error => simp [errorKind?, error] at circular

theorem Bare.of_own (h : c.Bare) (own : d.own = c.own) : d.Bare :=
  ⟨(congrArg Cell.content own :).trans h.content,
    (congrArg Cell.references own :).trans h.references,
    (congrArg Cell.value own :).trans h.value⟩

theorem Grown.of_script (h : c.Grown s tree) (script : d.script = c.script) (more : s.Extends t) :
    d.Grown t tree := by
  have hformula : d.formula = c.formula := (congrArg Cell.formula script :)
  exact ⟨(congrArg Cell.content script :).trans h.content, hformula ▸ more.compile_eq h.compiles,
    (congrArg Cell.unresolved script :).trans h.resolved⟩

/-- A cell stays as it stands when other cells come up that it does not depend on. -/
theorem Pristine.of_own (h : c.Pristine s) (own : d.own = c.own) (more : s.Extends t)
    (deep : ∀ y ∈ c.deep, t.hasError y = s.hasError y)
    (named : ∀ tree, c.tree? = some tree → ∀ y ∈ tree.cells, s.SameOwn t y) : d.Pristine t := by
  have herror : d.error = c.error := (congrArg Cell.error own :)
  have hvalue : d.value = c.value := (congrArg Cell.value own :)
  have hresolved : d.unresolved = c.unresolved := (congrArg Cell.unresolved own :)
  have hdeep : d.deep = c.deep := (congrArg Cell.deep own :)
  have hformula : d.formula = c.formula := (congrArg Cell.formula own :)
  have hid : d.id = c.id := (congrArg Cell.id own :)
  have hscript : d.script = c.script := (congrArg Cell.script own :)
  have hclear : ¬s.BelowError c → ¬t.BelowError d :=
    mt fun hb => hb.congr hdeep.symm fun y hy => (deep y (hdeep ▸ hy)).symm
  have heval : ∀ tree, c.Grown s tree → tree.eval t.context = tree.eval s.context :=
    fun tree hg => Sheet.eval_eq_of_own (named tree hg.tree?)
  cases h with
  | failed bare cause error missing compiles =>
    refine .failed (bare.of_own own) cause (herror.trans error) (hresolved.trans missing)
      fun hn => ?_
    rw [hformula]
    -- A name that still belongs to no cell did not belong to one before.
    refine more.compile_error_eq (compiles fun name hc => ?_) hn
    refine Option.eq_none_iff_forall_ne_some.mpr fun y hy => ?_
    cases (hn name hc).symm.trans (more.names name y hy)
  | circular bare name error resolved cycle =>
    refine .circular (bare.of_own own) name (herror.trans error) (hresolved.trans resolved) ?_
    rw [hid]
    exact TransGen.mono (fun _ _ => more.mentions) _ _ cycle
  | carried tree grown name error value =>
    exact .carried tree (grown.of_script hscript more) name (herror.trans error)
      (hvalue.trans value)
  | evaluated tree grown clear cause fails error value =>
    exact .evaluated tree (grown.of_script hscript more) (hclear clear) cause
      ((heval tree grown).trans fails) (herror.trans error) (hvalue.trans value)
  | shown tree grown clear v gives error value =>
    exact .shown tree (grown.of_script hscript more) (hclear clear) v
      ((heval tree grown).trans gives)
      (herror.trans error) (hvalue.trans value)

end Cell

namespace Sheet

variable {s t : Sheet} {id x y : CellId} {b c d : Cell}

/-- Every cell has been given its formula once. -/
def Pristine (s : Sheet) : Prop :=
  ∀ x c, s.cell? x = some c → c.Pristine s

/-- The sheet would be pristine but for one cell, which has never had a tree. If others depend on
that, it is in error. -/
structure PristineBut (s : Sheet) (id : CellId) : Prop where
  here : ∀ c, s.cell? id = some c → c.Bare
  others : ∀ x c, x ≠ id → s.cell? x = some c → c.Pristine s
  alarm : ∀ x, TransGen s.Refers x id → s.hasError id = true

namespace PristineBut

variable (h : s.PristineBut id)
include h

theorem bare_or_grown (hc : s.cell? x = some c) : c.Bare ∨ ∃ tree, c.Grown s tree := by
  by_cases hx : x = id
  · exact .inl (h.here c (hx ▸ hc))
  · exact (h.others x c hx hc).bare_or_grown

/-- A cell with references has the tree of its formula. -/
theorem grown_of_refers (hr : s.Refers x y) : ∃ c tree, s.cell? x = some c ∧ c.Grown s tree := by
  obtain ⟨c, hc⟩ := mem_ids_iff.mp (mem_ids_of_mem_referencesOf hr)
  rcases h.bare_or_grown hc with hbare | ⟨tree, hgrown⟩
  · change y ∈ s.referencesOf x at hr
    rw [referencesOf_of_cell? hc, hbare.references] at hr
    cases hr
  · exact ⟨c, tree, hc, hgrown⟩

theorem mentions_of_refers (bound : s.Bound) (hr : s.Refers x y) : s.Mentions x y := by
  obtain ⟨c, tree, hc, hgrown⟩ := h.grown_of_refers hr
  change y ∈ s.referencesOf x at hr
  rw [referencesOf_of_cell? hc] at hr
  exact ⟨c, tree, hc, hgrown.compiles, ((bound.references x c tree hc hgrown.tree? y).mp hr).1⟩

/-- What depends on the cell carries an error, as it has one. -/
theorem carried_of_reaches (sound : s.SoundBut id) (hr : TransGen s.Refers x id) :
    ∃ b tree name, s.cell? x = some b ∧ b.Grown s tree ∧ b.value = default ∧
      b.error = some (.carried name) := by
  obtain ⟨y, hy, -⟩ := TransGen.head'_iff.mp hr
  obtain ⟨b, tree, hb, hgrown⟩ := h.grown_of_refers hy
  have hne : x ≠ id := fun he => sound.linked.acyclic id (he ▸ hr)
  have hbelow : s.BelowError b :=
    ⟨id, ((sound.upToDate x hne).deep.mem_deep hb).mpr hr, h.alarm x hr⟩
  obtain ⟨hvalue, name, herror⟩ := (h.others x b hne hb).carried_of_belowError hgrown hbelow
  exact ⟨b, tree, name, hb, hgrown, hvalue, herror⟩

end PristineBut

/-- A cell stays as it stands if it and all that it depends on stay the same. -/
theorem SameOwn.pristine (same : s.SameOwn t x) (more : s.Extends t) (indexed : s.Indexed)
    (bound : s.Bound) (deep : s.DeepAt x) (below : ∀ y, TransGen s.Refers x y → s.SameOwn t y)
    (hd : t.cell? x = some d) (h : ∀ c, s.cell? x = some c → c.Pristine s) : d.Pristine t := by
  obtain ⟨c, hc, hown⟩ := same.cell? hd
  have hdeep : ∀ y ∈ c.deep, s.SameOwn t y := fun y hy => below y ((deep.mem_deep hc).mp hy)
  refine (h c hc).of_own hown more (fun y hy => (hdeep y hy).hasError_eq) fun tree ht y hy => ?_
  rcases (h c hc).bare_or_grown with hbare | ⟨tree', hgrown⟩
  · cases hbare.tree?.symm.trans ht
  · obtain rfl := Option.some.inj (hgrown.tree?.symm.trans ht)
    obtain ⟨name, hname⟩ := resolve_of_mem_cells hgrown.compiles hy
    exact below y (.single (bound.refers hc ht hy (indexed.mem_ids hname)))

end Sheet

namespace Edit

open Sheet

variable {e e' : Edit} {id x : CellId} {c d : Cell} {tree : Expr}

/-- A cell that is recomputed for the first time shows the value of its tree, up to the sign of a
zero. -/
theorem Recomputed.pristine (h : e.Recomputed c d) (grown : c.Grown e.sheet tree)
    (sane : c.isStructural = false) (value : c.value = default) : d.Pristine e.sheet := by
  cases h with
  | structural hs _ => cases sane.symm.trans hs
  | treeless ht _ => cases ht.symm.trans grown.tree?
  | below _ _ _ _ name h =>
    subst h
    exact .carried tree ⟨grown.content, grown.compiles, grown.resolved⟩ name rfl value
  | failed _ tree' ht clear cause he h =>
    subst h
    obtain rfl := Option.some.inj (ht.symm.trans grown.tree?)
    exact .evaluated tree' ⟨grown.content, grown.compiles, grown.resolved⟩ clear cause he rfl value
  | shown _ tree' ht clear v hv h =>
    subst h
    obtain rfl := Option.some.inj (ht.symm.trans grown.tree?)
    exact .shown tree' ⟨grown.content, grown.compiles, grown.resolved⟩ clear v hv rfl
      (Value.plain_of_replaced (.inl value))

/-- What depends on a cell that never had a tree is recomputed for the first time, or left with the
error that it carries. -/
theorem pristine_below (sound : e.sheet.SoundBut id) (h : e.sheet.PristineBut id)
    (more : e.sheet.Extends e'.sheet) (hr : TransGen e.sheet.Refers x id)
    (below : ∀ b, e.sheet.cell? x = some b → ∃ d, e'.sheet.cell? x = some d ∧
      (e'.Recomputed (b.linkedAs d) d ∨ d = b.linkedAs d)) (hd : e'.sheet.cell? x = some d) :
    d.Pristine e'.sheet := by
  obtain ⟨b, tree, name, hb, hgrown, hvalue, herror⟩ := h.carried_of_reaches sound hr
  obtain ⟨d', hd', hout⟩ := below b hb
  obtain rfl := Option.some.inj (hd'.symm.trans hd)
  have hgrown' : (b.linkedAs d').Grown e'.sheet tree := hgrown.of_script rfl more
  rcases hout with hrecomputed | heq
  · refine hrecomputed.pristine hgrown' ?_ hvalue
    simp [Cell.isStructural, Cell.linkedAs, herror, CellError.isStructural, CellError.kind]
  · rw [heq]
    exact .carried tree hgrown' name herror hvalue

theorem Applied.pristine (h : e.Applied id c e') (sound : e.sheet.SoundBut id)
    (but : e.sheet.PristineBut id) (hc : e.sheet.cell? id = some c)
    (roster : e'.sheet.roster = e.sheet.roster) (more : e.sheet.Extends e'.sheet)
    (hx : x = id ∨ TransGen e.sheet.Refers x id) (hd : e'.sheet.cell? x = some d) :
    d.Pristine e'.sheet := by
  have hbare := but.here c hc
  have hresolver : e'.sheet.resolver = e.sheet.resolver := resolver_eq_of_roster roster
  cases h with
  | failed cause he here below =>
    rcases hx with rfl | hr
    · obtain rfl := Option.some.inj (here.symm.trans hd)
      exact .failed ⟨rfl, hbare.references, hbare.value⟩ cause rfl rfl fun _ => hresolver ▸ he
    · refine pristine_below sound but more hr (fun b hb => ?_) hd
      obtain ⟨d, hd, hrecomputed⟩ := below x b hr hb
      exact ⟨d, hd, .inl hrecomputed⟩
  | circular tree he closes d' name here eq below =>
    rcases hx with rfl | hr
    · obtain rfl := Option.some.inj (here.symm.trans hd)
      -- All others on the cycle have trees, so that their formulas still refer as they did.
      obtain ⟨r, hmem, hback⟩ := closes
      have hid := cell?_id hc
      have hcycle : TransGen e.sheet.Mentions x x :=
        .head' ⟨c, tree, hc, he, hmem⟩
          (ReflTransGen.mono (fun _ _ => but.mentions_of_refers sound.bound) _ _ hback)
      rw [eq]
      refine .circular ⟨rfl, rfl, hbare.value⟩ name rfl rfl ?_
      change TransGen _ c.id c.id
      rw [hid]
      exact TransGen.mono (fun _ _ => more.mentions) _ _ hcycle
    · refine pristine_below sound but more hr (fun b hb => ?_) hd
      obtain ⟨d, hd, heq⟩ := below x b hr hb
      exact ⟨d, hd, .inr heq⟩
  | built tree he d' error sane here recomputed below =>
    rcases hx with rfl | hr
    · obtain rfl := Option.some.inj (here.symm.trans hd)
      exact recomputed.pristine ⟨rfl, more.compile_eq he, rfl⟩ sane hbare.value
    · refine pristine_below sound but more hr (fun b hb => ?_) hd
      obtain ⟨d, hd, hrecomputed⟩ := below x b hr hb
      exact ⟨d, hd, .inl hrecomputed⟩

/-- Settling a cell that never had a tree leaves all cells as their formulas have them. -/
theorem applyFormula_pristine (sound : e.sheet.SoundBut id) (h : e.sheet.PristineBut id)
    (hc : e.sheet.cell? id = some c) : (e.applyFormula id).sheet.Pristine := by
  have hmore := Extends.applyFormula e id
  intro x d hd
  by_cases hx : x = id ∨ TransGen e.sheet.Refers x id
  · exact (applyFormula_applied sound hc (h.here c hc).isTable).pristine sound h hc
      (applyFormula_roster e id) hmore hx hd
  · obtain ⟨hne, hapart⟩ := not_or.mp hx
    refine (applyFormula_apart sound hne hapart).pristine hmore sound.indexed sound.bound
      (sound.upToDate x hne).deep (fun y hy => ?_) hd (fun b hb => h.others x b hne hb)
    apply applyFormula_apart sound
    · exact fun he => hapart (he ▸ hy)
    · exact fun hr => hapart (hy.trans hr)

theorem rebind_pristine (sound : e.sheet.Sound) (phrased : e.sheet.Phrased)
    (grounded : e.sheet.Grounded) (pristine : e.sheet.Pristine) (name : String) :
    (e.rebind name).sheet.Pristine := by
  refine rebind_waiting (fun e => e.sheet.Pristine) (fun e w c hs hc _ hwaits herror h => ?_) sound
    phrased grounded pristine name
  refine applyFormula_pristine (hs.soundBut w)
    ⟨fun d hd => ?_, fun x d _ => h x d, fun _ _ => ?_⟩ hc
  · obtain rfl := Option.some.inj (hc.symm.trans hd)
    exact (h w c hc).bare_of_unresolved hwaits
  · rw [hasError, hc]
    exact herror

end Edit

namespace Sheet

variable {s : Sheet}

/-- A new cell has never had a tree, and nothing depends on it. -/
theorem Pristine.insertCell {name : String} (h : s.Pristine) (sound : s.Sound)
    (free : s.idOf? name = none) (formula : String) :
    (s.insertCell name formula (.formula none)).PristineBut s.nextId := by
  have hindexed := sound.indexed
  have hnext := hindexed.nextId_not_mem
  have hsame : ∀ x, x ≠ s.nextId → s.SameOwn (s.insertCell name formula (.formula none)) x :=
    fun x hx => .of_cell?_eq (hindexed.cell?_insertCell_other _ _ _ hx)
  refine ⟨fun c hc => ?_, fun x c hx hc => ?_, fun x hr => ?_⟩
  · obtain rfl := Option.some.inj ((hindexed.cell?_insertCell_self ..).symm.trans hc)
    exact ⟨rfl, rfl, rfl⟩
  · refine (hsame x hx).pristine (.insertCell hindexed free formula _) hindexed sound.bound
      (sound.upToDate x).deep (fun y hy => hsame y ?_) hc (h x)
    rintro rfl
    exact hnext (sound.linked.mem_ids_of_transGen hy)
  · obtain ⟨y, -, hy⟩ := TransGen.tail'_iff.mp hr
    rw [Refers, hindexed.referencesOf_insertCell] at hy
    exact absurd (sound.linked.mem_ids hy) hnext

/-- A new cell leaves all cells as their formulas have them. -/
theorem Pristine.createCell {settings : Settings} {name : String} (h : s.Pristine)
    (kept : s.Kept settings) (free : s.idOf? name = none) (formula : String) :
    (((s.insertCell name formula (.formula none)).unchanged.applyFormula s.nextId).rebind
      name).sheet.Pristine := by
  have hbut := kept.sound.insertCell free formula (.formula none) (fun _ => nofun)
  have hcell := kept.sound.indexed.cell?_insertCell_self name formula (.formula none)
  apply Edit.rebind_pristine (Edit.applyFormula_sound hbut hcell rfl)
    (Edit.applyFormula_phrased (insertCell_phrased kept.sound kept.phrased free formula _) hcell
      rfl)
  · exact Edit.applyFormula_grounded hcell rfl fun x hx =>
      GroundedAt.insertCell (kept.grounded x) kept.sound.indexed _ _ _ hx
  · exact Edit.applyFormula_pristine hbut (h.insertCell kept.sound free formula) hcell

end Sheet

end LiveSheet
