import LiveSheet.Proofs.Storage.Restored

namespace LiveSheet

open Relation

/-- The cells show the same value, or are in error of the same kind, with the same message unless
they carry an error. -/
inductive Cell.Alike (c d : Cell) : Prop
  | value (v : Value) (h : c.read = .ok v) (h' : d.read = .ok v)
  | error (e e' : CellError) (h : c.read = .error e) (h' : d.read = .error e')
      (kind : e.kind = e'.kind)
    (message : e.kind ≠ .carried → e.message = e'.message)

section Reading

variable {c d : Cell}

theorem Cell.hasError_iff_read (formula : c.isTable = false) :
    c.hasError = true ↔ ∃ e, c.read = .error e := by
  rw [read_eq, hasError]
  cases c.error <;> simp [formula]

theorem Cell.Alike.hasError_iff (h : c.Alike d) (formula : c.isTable = false)
    (formula' : d.isTable = false) : c.hasError = true ↔ d.hasError = true := by
  rw [hasError_iff_read formula, hasError_iff_read formula']
  cases h with
  | value v h h' => simp [h, h']
  | error e e' h h' => simp [h, h']

end Reading

namespace Sheet

variable {t u : Sheet} {settings : Settings} {made made' : List Record} {x y : CellId}
    {b b' c d : Cell}
  {tree : Expr} {ref ref' : CellRef}

/-- A name leads to cells that are alike. -/
def AlikeAt (t u : Sheet) (ref : CellRef) : Prop :=
  ∃ b b', t.cell? ref.id = some b ∧ u.cell? (ref.under u.resolver).id = some b' ∧
    b'.name = b.name ∧ b.Alike b'

/-- Formulas find the same in two cells of one name that show the same value. -/
theorem agreeOn_of_read (hb : t.cell? ref.id = some b)
    (hb' : u.cell? (ref.under u.resolver).id = some b') (name : b'.name = b.name)
    (formula : b.isTable = false) (formula' : b'.isTable = false) {v : Value}
    (h : b.read = .ok v) (h' : b'.read = .ok v) :
    t.context.AgreeOn (· = ·) (u.context.comap (CellRef.under u.resolver)) ref := by
  obtain ⟨herror, hvalue⟩ := (Cell.read_eq_ok formula).mp h
  obtain ⟨herror', hvalue'⟩ := (Cell.read_eq_ok formula').mp h'
  have hgrid : ∀ c : Cell, c.isTable = false → c.grid? = none := fun c hc => by
    simpa [Cell.isTable] using hc
  refine ⟨?_, fun row col => ?_⟩
  · have hfound : t.context.value ref = .ok v :=
      context_value_eq_ok.mpr ⟨b, hb, herror, formula, hvalue⟩
    have hfound' : u.context.value (ref.under u.resolver) = .ok v :=
      context_value_eq_ok.mpr ⟨b', hb', herror', formula', hvalue'⟩
    rw [hfound, Context.comap, hfound']
    exact .ok v
  · simp only [Context.comap, context, referenced, hb, hb', hgrid b formula, hgrid b' formula',
      name,
      bind, Except.bind]
    exact .refl (fun _ => rfl) _

namespace Made

section Shown

variable (h : Made settings made t)
include h

/-- A cell depends on an error exactly if its tree refers to a cell in error. -/
theorem belowError_iff (hc : t.cell? x = some c) (grown : c.Grown t tree) :
    t.BelowError c ↔ ∃ y ∈ tree.cells, t.hasError y = true := by
  constructor
  · rintro ⟨y, hy, herror⟩
    obtain ⟨z, hz, hzy⟩ := TransGen.head'_iff.mp ((h.mem_deep_iff hc).mp hy)
    refine ⟨z, ?_, ?_⟩
    · change z ∈ t.referencesOf x at hz
      rw [referencesOf_of_cell? hc] at hz
      exact ((h.kept.sound.bound.references x c tree hc grown.tree? z).mp hz).1
    · rcases reflTransGen_iff_eq_or_transGen.mp hzy with rfl | hzy
      · exact herror
      · obtain ⟨b, hb⟩ := mem_ids_iff.mp (h.kept.sound.linked.mem_ids hz)
        exact h.hasError_of_belowError hb ⟨y, (h.mem_deep_iff hb).mpr hzy, herror⟩
  · rintro ⟨y, hy, herror⟩
    obtain ⟨name, hname⟩ := resolve_of_mem_cells grown.compiles hy
    have hrefers := h.kept.sound.bound.refers hc grown.tree? hy (h.kept.sound.indexed.mem_ids hname)
    exact ⟨y, (h.mem_deep_iff hc).mpr (.single hrefers), herror⟩

/-- In the end a cell with a tree carries an error if there is one below it, and otherwise shows
what its tree gives. -/
theorem read_of_grown (hc : t.cell? x = some c) (grown : c.Grown t tree) :
    (t.BelowError c ∧ ∃ name, c.read = .error (.carried name)) ∨ ¬t.BelowError c ∧
      c.read = match tree.eval t.context with
        | .ok v => .ok v.plain
        | .error cause => .error (.evaluation cause) := by
  by_cases hbelow : t.BelowError c
  · obtain ⟨-, name, herror⟩ := (h.pristine x c hc).carried_of_belowError grown hbelow
    exact .inl ⟨hbelow, name, Cell.read_of_error herror⟩
  · refine .inr ⟨hbelow, ?_⟩
    have hsame : ∀ tree', c.Grown t tree' → tree' = tree := fun tree' hg =>
      Except.ok.inj (hg.compiles.symm.trans grown.compiles)
    cases h.pristine x c hc with
    | failed bare => cases bare.tree?.symm.trans grown.tree?
    | circular bare => cases bare.tree?.symm.trans grown.tree?
    | carried _ _ name error =>
      have hsettled := (h.kept.sound.upToDate x).settled c hc grown.isTable
      exact absurd (hsettled.carried (by simp [Cell.errorKind?, error, CellError.kind])) hbelow
    | evaluated tree' grown' _ cause fails error =>
      rw [← hsame tree' grown', fails]
      exact Cell.read_of_error error
    | shown tree' grown' _ v gives error value =>
      rw [← hsame tree' grown', gives]
      exact (Cell.read_eq_ok grown.isTable).mpr ⟨error, value⟩

theorem not_isCircular (acyclic : ∀ x, ¬TransGen t.Mentions x x) (x : CellId) :
    ¬t.IsCircular x := by
  rintro ⟨c, hc, hk⟩
  exact acyclic c.id ((h.pristine x c hc).cycle hk)

end Shown

section Twins

variable (h : Made settings made t) (h' : Made settings made' u)
include h h'

theorem belowError_iff_of_alikeAt (hc : t.cell? x = some c) (hd : u.cell? y = some d)
    (grown : c.Grown t tree) (grown' : d.Grown u (tree.mapRefs (CellRef.under u.resolver)))
    (refs : ∀ ref ∈ tree.refs, t.AlikeAt u ref) : t.BelowError c ↔ u.BelowError d := by
  rw [h.belowError_iff hc grown, h'.belowError_iff hd grown', Expr.cells_eq, Expr.cells_eq,
    Expr.refs_mapRefs, List.map_map]
  simp only [List.mem_map, Function.comp_apply, exists_exists_and_eq_and]
  refine exists_congr fun ref => and_congr_right fun hr => ?_
  obtain ⟨b, b', hb, hb', -, halike⟩ := refs ref hr
  rw [hasError, hasError, hb, hb']
  exact halike.hasError_iff (h.pristine _ b hb).isTable (h'.pristine _ b' hb').isTable

theorem eval_eq_of_alikeAt (hc : t.cell? x = some c) (grown : c.Grown t tree)
    (clear : ¬t.BelowError c) (refs : ∀ ref ∈ tree.refs, t.AlikeAt u ref) :
    (tree.mapRefs (CellRef.under u.resolver)).eval u.context = tree.eval t.context := by
  rw [Expr.eval_mapRefs]
  refine (tree.eval_sameUpTo (fun _ => rfl) fun ref hr => ?_).eq.symm
  obtain ⟨b, b', hb, hb', hname, halike⟩ := refs ref hr
  have hformula := (h.pristine _ b hb).isTable
  cases halike with
  | value v hv hv' =>
    exact agreeOn_of_read hb hb' hname hformula (h'.pristine _ b' hb').isTable hv hv'
  | error e _ he =>
    refine absurd ((h.belowError_iff hc grown).mpr ⟨ref.id, Expr.mem_cells_of_mem_refs hr, ?_⟩)
      clear
    rw [hasError, hb]
    exact (Cell.hasError_iff_read hformula).mpr ⟨e, he⟩

theorem alike_of_grown (hc : t.cell? x = some c) (hd : u.cell? y = some d) (grown : c.Grown t tree)
    (grown' : d.Grown u (tree.mapRefs (CellRef.under u.resolver)))
    (refs : ∀ ref ∈ tree.refs, t.AlikeAt u ref) : c.Alike d := by
  have hbelow := h.belowError_iff_of_alikeAt h' hc hd grown grown' refs
  rcases h.read_of_grown hc grown with ⟨hb, _, hread⟩ | ⟨hb, hread⟩
  · rcases h'.read_of_grown hd grown' with ⟨-, _, hread'⟩ | ⟨hb', -⟩
    · exact .error _ _ hread hread' rfl fun hk => absurd rfl hk
    · exact absurd (hbelow.mp hb) hb'
  · rcases h'.read_of_grown hd grown' with ⟨hb', -⟩ | ⟨-, hread'⟩
    · exact absurd (hbelow.mpr hb') hb
    · rw [h.eval_eq_of_alikeAt h' hc grown hb refs] at hread'
      generalize tree.eval t.context = result at hread hread'
      cases result with
      | ok v => exact .value v.plain hread hread'
      | error cause => exact .error _ _ hread hread' rfl fun _ => rfl

variable (same : ∀ r, r ∈ made ↔ r ∈ made')
include same

theorem resolver_iff (name : String) : t.resolver name ≠ none ↔ u.resolver name ≠ none := by
  rw [h.resolver_ne_none_iff, h'.resolver_ne_none_iff, List.mem_map, List.mem_map]
  simp only [same]

theorem formula_eq (hc : t.cell? x = some c) (hd : u.cell? y = some d) (name : d.name = c.name) :
    d.formula = c.formula := by
  obtain ⟨d', hd', hrecord⟩ := h'.exists_cell ((same _).mp (h.record_mem hc))
  have hname : d'.name = c.name := congrArg Record.name hrecord
  obtain rfl := h'.kept.sound.indexed.eq_of_name hd' hd (hname.trans name.symm)
  exact congrArg Record.formula hrecord

/-- What a tree refers to has a namesake in the other sheet. -/
theorem exists_under (he : compile t.resolver c.formula = .ok tree) (hr : ref ∈ tree.refs) :
    ∃ b b', t.cell? ref.id = some b ∧ u.cell? (ref.under u.resolver).id = some b' ∧
      b'.name = b.name := by
  have hresolve := (resolve_of_mem_refs he hr).2
  have hknown : t.resolver ref.name ≠ none := by
    rw [hresolve]
    exact Option.some_ne_none _
  obtain ⟨y, hy⟩ := Option.ne_none_iff_exists'.mp ((h.resolver_iff h' same ref.name).mp hknown)
  obtain ⟨b, hb, hname⟩ := (h.kept.sound.indexed.names ref.name ref.id).mp hresolve
  obtain ⟨b', hb', hname'⟩ := (h'.kept.sound.indexed.names ref.name y).mp hy
  have hunder : (ref.under u.resolver).id = y := by simp [CellRef.under, hy]
  exact ⟨b, b', hb, hunder ▸ hb', hname'.trans hname.symm⟩

/-- Two cells of one name are alike if those are that the first one refers to, as nothing else bears
on what they show. -/
theorem alike_of_refers (straight : ∀ x, ¬t.IsCircular x) (straight' : ∀ y, ¬u.IsCircular y)
    (hc : t.cell? x = some c) (hd : u.cell? y = some d) (name : d.name = c.name)
    (below : ∀ z b z' b', t.Refers x z → t.cell? z = some b → u.cell? z' = some b' →
      b'.name = b.name → b.Alike b') : c.Alike d := by
  have hformula := h.formula_eq h' same hc hd name
  have hknown := h.resolver_iff h' same
  -- Both formulas are compiled against the same names, with the same outcome.
  cases hcompile : compile t.resolver c.formula with
  | error cause =>
    have hcompile' : compile u.resolver d.formula = .error cause := by
      rw [hformula]
      refine compile_error_under (fun name => (hknown name).mp) (fun name hn => ?_) hcompile
      rw [hn] at hcompile
      exact not_not.mp fun hu => (hknown name).mpr hu (resolve_of_compile_error hcompile)
    exact .error _ _ (Cell.read_of_error (h.error_of_compile_error hc hcompile))
      (Cell.read_of_error (h'.error_of_compile_error hd hcompile')) rfl fun _ => rfl
  | ok tree =>
    have hgrown := h.grown_of_compiles hc hcompile (straight x)
    have hgrown' : d.Grown u (tree.mapRefs (CellRef.under u.resolver)) := by
      refine h'.grown_of_compiles hd ?_ (straight' y)
      rw [hformula]
      exact compile_under_of_known hcompile fun name => (hknown name).mp
    refine h.alike_of_grown h' hc hd hgrown hgrown' fun ref hr => ?_
    obtain ⟨b, b', hb, hb', hname⟩ := h.exists_under h' same hcompile hr
    have hrefers := h.kept.sound.bound.refers hc hgrown.tree? (Expr.mem_cells_of_mem_refs hr)
      (mem_ids_iff.mpr ⟨b, hb⟩)
    exact ⟨b, b', hb, hb', hname, below _ b _ b' hrefers hb hb' hname⟩

theorem alike (straight : ∀ x, ¬t.IsCircular x) (straight' : ∀ y, ¬u.IsCircular y)
    (hc : t.cell? x = some c) (hd : u.cell? y = some d) (name : d.name = c.name) : c.Alike d := by
  have hall : ∀ c y d, t.cell? x = some c → u.cell? y = some d → d.name = c.name → c.Alike d := by
    refine h.kept.sound.linked.wellFoundedOn.induction (mem_ids_iff.mpr ⟨c, hc⟩)
      (P := fun x => ∀ c y d, t.cell? x = some c → u.cell? y = some d → d.name = c.name →
        c.Alike d) ?_
    intro x _ ih c y d hc hd hname
    refine h.alike_of_refers h' same straight straight' hc hd hname fun z b z' b' hz hb hb' hn => ?_
    exact ih z (mem_ids_iff.mpr ⟨b, hb⟩) (.single hz) b z' b' hb hb' hn
  exact hall c y d hc hd name

end Twins

end Made

end Sheet

/-- Documents with the same records of distinct valid names, of which no name leads back to itself,
are restored to cells that are alike, whatever the order of the records. -/
theorem Document.restoreWith_perm {settings : Settings} {d d' : Document}
    (tag : d.evaluator = settings.evaluator) (tag' : d'.evaluator = settings.evaluator)
    (perm : d.cells.Perm d'.cells) (distinct : (d.cells.map Record.name).Nodup)
    (valid : ∀ r ∈ d.cells, isValidName r.name = true)
    (acyclic : ∀ name, ¬TransGen d.Mentions name name) :
    ∃ t u, d.restoreWith settings = .ok t ∧ d'.restoreWith settings = .ok u ∧
      (∀ r ∈ d.cells, ∃ b c, t.get r.name = .ok b ∧ u.get r.name = .ok c ∧ b.Alike c) ∧
      ∀ name ∉ d.cells.map Record.name,
        t.get name = .error (.notFound name) ∧ u.get name = .error (.notFound name) := by
  have hnames := perm.map Record.name
  obtain ⟨t, ht, hmade⟩ := restoreWith_made tag distinct valid
  obtain ⟨u, hu, hmade'⟩ := restoreWith_made tag' (hnames.nodup_iff.mp distinct)
    fun r hr => valid r (perm.mem_iff.mpr hr)
  refine ⟨t, u, ht, hu, fun r hr => ?_, fun name hn => ⟨hmade.get_of_not_mem hn, ?_⟩⟩
  · obtain ⟨b, hb, rfl⟩ := hmade.exists_cell hr
    obtain ⟨c, hc, hrecord⟩ := hmade'.exists_cell (perm.mem_iff.mp hr)
    have hname : c.name = b.name := congrArg Record.name hrecord
    have hget : u.get b.name = .ok c := hname ▸ hmade'.get_name hc
    refine ⟨b, c, hmade.get_name hb, hget, ?_⟩
    refine hmade.alike hmade' (fun _ => perm.mem_iff) (hmade.not_isCircular fun x hx => ?_)
      (hmade'.not_isCircular fun y hy => ?_) hb hc hname
    · exact acyclic _ (TransGen.lift t.displayName (fun _ _ => hmade.displayName_mentions) _ _ hx)
    · exact acyclic _ (TransGen.lift u.displayName
        (fun _ _ hm => (hmade'.displayName_mentions hm).of_perm perm) _ _ hy)
  · exact hmade'.get_of_not_mem fun hm => hn (hnames.mem_iff.mpr hm)

set_option maxRecDepth 20000 in
/-- Two cells, of which one shows the value of the other, in both orders. -/
theorem Document.restoreWith_swapped :
    let d : Document := ⟨"tree", [⟨"a", "b"⟩, ⟨"b", "true"⟩]⟩
    let d' : Document := ⟨"tree", [⟨"b", "true"⟩, ⟨"a", "b"⟩]⟩
    d.evaluator = Settings.default.evaluator ∧ d'.evaluator = Settings.default.evaluator ∧
      d.cells.Perm d'.cells ∧ (d.cells.map Record.name).Nodup ∧
      (∀ r ∈ d.cells, isValidName r.name = true) ∧ (∀ name, ¬TransGen d.Mentions name name) ∧
      ∃ t u, d.restoreWith .default = .ok t ∧ d'.restoreWith .default = .ok u ∧
        (∀ r ∈ d.cells, ∃ b c, t.get r.name = .ok b ∧ u.get r.name = .ok c ∧ b.Alike c) ∧
        ∀ name ∉ d.cells.map Record.name,
          t.get name = .error (.notFound name) ∧ u.get name = .error (.notFound name) := by
  intro d d'
  have hperm : d.cells.Perm d'.cells := .swap _ _ _
  have hdistinct : (d.cells.map Record.name).Nodup := by decide
  have hvalid : ∀ r ∈ d.cells, isValidName r.name = true := by decide
  have hmentions : ∀ x y, d.Mentions x y → x = "a" ∧ y = "b" := by
    rintro _ _ ⟨r, hr, rfl, tree, he, ref, href, rfl⟩
    rcases List.mem_pair.mp hr with rfl | rfl
    · have hb : compile d.resolver "b" = .ok (.cell ⟨⟨2⟩, "b"⟩) :=
        compile_name (by cbv) (by decide) (by decide)
      obtain rfl := Except.ok.inj (hb.symm.trans he)
      obtain rfl := List.mem_singleton.mp href
      exact ⟨rfl, rfl⟩
    · have htrue : compile d.resolver "true" = .ok (.literal (.boolean true)) := by cbv
      obtain rfl := Except.ok.inj (htrue.symm.trans he)
      cases href
  have hacyclic : ∀ name, ¬TransGen d.Mentions name name := by
    intro name h
    obtain ⟨y, hy, -⟩ := TransGen.head'_iff.mp h
    obtain ⟨x, -, hx⟩ := TransGen.tail'_iff.mp h
    exact absurd ((hmentions _ _ hy).1.symm.trans (hmentions _ _ hx).2) (by decide)
  exact ⟨rfl, rfl, hperm, hdistinct, hvalid, hacyclic,
    restoreWith_perm rfl rfl hperm hdistinct hvalid hacyclic⟩

end LiveSheet
