import LiveSheet.Proofs.Number.Zeros
import LiveSheet.Proofs.Sheet.Flawless

namespace LiveSheet

open Relation

/-- No cell that a cell depends on holds the negative zero. -/
def Sheet.PlainFor (s : Sheet) (c : Cell) : Prop :=
  ∀ y ∈ c.deep, ∀ b, s.cell? y = some b → b.value ≠ .float (-0)

/-- Two identities belong to cells of one name, the first one in the sheet. -/
def Sheet.Namesake (s : Sheet) (resolve : Resolver) (b y : CellId) : Prop :=
  ∃ name, s.idOf? name = some b ∧ resolve name = some y

/-- A cell `d` made anew from the name and the formula of a cell `c` of the sheet, while others of
the sheet are still to come. A cell that is pending may show a value that is not its own. -/
structure Cell.Tracks (s : Sheet) (resolve : Resolver) (pending : Prop) (c d : Cell) : Prop where
  name : d.name = c.name
  formula : d.formula = c.formula
  table : d.isTable = false
  tree : ∀ tree, d.tree? = some tree → compile resolve c.formula = .ok tree
  references : ∀ y ∈ d.references, ∃ b, s.Namesake resolve b y ∧ s.Refers c.id b
  deep : ∀ y ∈ d.deep, ∃ b, s.Namesake resolve b y ∧ TransGen s.Refers c.id b
  straight : d.errorKind? ≠ some .circularReference
  value : s.PlainFor c → d.value = default ∨ d.value = c.value.plain
  shown : ¬pending → s.PlainFor c → d.error = none → d.value = c.value.plain

namespace Cell.Tracks

variable {s : Sheet} {resolve other : Resolver} {pending pending' : Prop} {c d : Cell}

theorem mono (h : Cell.Tracks s resolve pending c d) (weaker : pending → pending') :
    Cell.Tracks s resolve pending' c d :=
  ⟨h.name, h.formula, h.table, h.tree, h.references, h.deep, h.straight, h.value,
    fun hp => h.shown (mt weaker hp)⟩

/-- More names may come up. -/
theorem extend (h : Cell.Tracks s resolve pending c d)
    (more : ∀ name y, resolve name = some y → other name = some y) :
    Cell.Tracks s other pending c d := by
  have hmore : ∀ b y, s.Namesake resolve b y → s.Namesake other b y :=
    fun b y ⟨name, hb, hy⟩ => ⟨name, hb, more name y hy⟩
  refine ⟨h.name, h.formula, h.table, fun tree ht => ?_, fun y hy => ?_, fun y hy => ?_, h.straight,
    h.value, h.shown⟩
  · exact compile_congr (h.tree tree ht) fun ref hr =>
      more ref.name ref.id (resolve_of_mem_refs (h.tree tree ht) hr).2
  · obtain ⟨b, hb, hr⟩ := h.references y hy
    exact ⟨b, hmore b y hb, hr⟩
  · obtain ⟨b, hb, hr⟩ := h.deep y hy
    exact ⟨b, hmore b y hb, hr⟩

end Cell.Tracks

namespace Sheet

variable {s t u : Sheet} {id x y b : CellId} {c d : Cell} {pending pending' : Prop}

/-- The cell of `t` under an identity is one of `s` made anew. -/
def TracksAt (s t : Sheet) (pending : Prop) (x : CellId) : Prop :=
  ∀ d, t.cell? x = some d → ∃ c, s.cell? c.id = some c ∧ Cell.Tracks s t.resolver pending c d

theorem TracksAt.mono (h : s.TracksAt t pending x) (weaker : pending → pending') :
    s.TracksAt t pending' x := by
  intro d hd
  obtain ⟨c, hc, htracks⟩ := h d hd
  exact ⟨c, hc, htracks.mono weaker⟩

theorem TracksAt.of_cell?_eq (h : s.TracksAt t pending x) (roster : u.roster = t.roster)
    (same : u.cell? x = t.cell? x) : s.TracksAt u pending x := by
  intro d hd
  rw [resolver_eq_of_roster roster]
  exact h d (same ▸ hd)

theorem TracksAt.of_cell? (hd : t.cell? x = some d) (hc : s.cell? c.id = some c)
    (h : Cell.Tracks s t.resolver pending c d) : s.TracksAt t pending x := by
  intro d' hd'
  obtain rfl := Option.some.inj (hd.symm.trans hd')
  exact ⟨c, hc, h⟩

theorem TracksAt.of_others (others : ∀ x, x ≠ id → s.TracksAt t False x)
    (hd : t.cell? id = some d) (hc : s.cell? c.id = some c)
    (h : Cell.Tracks s t.resolver True c d) (x : CellId) : s.TracksAt t True x := by
  by_cases hx : x = id
  · subst x
    exact .of_cell? hd hc h
  · exact (others x hx).mono False.elim

theorem Indexed.eq_of_name (h : s.Indexed) {b c : Cell} (hb : s.cell? x = some b)
    (hc : s.cell? y = some c) (name : b.name = c.name) : b = c := by
  have hid := h.idOf?_name hb
  rw [name, h.idOf?_name hc] at hid
  obtain rfl := Option.some.inj hid
  exact Option.some.inj (hb.symm.trans hc)

section Fixed

variable (hs : s.Flawless)
include hs

/-- Names tell which cell of the sheet a cell stands for. -/
theorem Namesake.eq_id (h : s.Namesake t.resolver b y) (indexed : t.Indexed)
    (hd : t.cell? y = some d) (hc : s.cell? c.id = some c) (name : d.name = c.name) : b = c.id := by
  obtain ⟨n, hb, hy⟩ := h
  obtain ⟨d', hd', hn⟩ := (indexed.names n y).mp hy
  obtain rfl := Option.some.inj (hd.symm.trans hd')
  have hid := hs.kept.sound.indexed.idOf?_name hc
  rw [← name, hn, hb] at hid
  exact Option.some.inj hid

/-- What a cell collects leads to cells that the one it stands for depends on. -/
theorem collectDeep_tracks (indexed : t.Indexed) (tracks : ∀ x, s.TracksAt t True x)
    (hd : t.cell? id = some d) (h : Cell.Tracks s t.resolver pending c d)
    (hy : y ∈ t.collectDeep id) :
    ∃ b, s.Namesake t.resolver b y ∧ TransGen s.Refers c.id b := by
  obtain ⟨r, hr, hy⟩ := mem_collectDeep.mp hy
  rw [referencesOf_of_cell? hd] at hr
  obtain ⟨b, hb, hrefers⟩ := h.references r hr
  rcases hy with rfl | hy
  · exact ⟨b, hb, .single hrefers⟩
  · cases hdr : t.cell? r with
    | none => simp [deepOf, hdr] at hy
    | some dr =>
      rw [deepOf_of_cell? hdr] at hy
      obtain ⟨cr, hcr, htr⟩ := tracks r dr hdr
      obtain ⟨b', hb', hreach⟩ := htr.deep y hy
      rw [hb.eq_id hs indexed hdr hcr htr.name] at hrefers
      exact ⟨b', hb', .head hrefers hreach⟩

/-- A sheet that is made anew closes no cycle where the other one has none. -/
theorem not_mem_collectDeep (indexed : t.Indexed) (tracks : ∀ x, s.TracksAt t True x)
    (hd : t.cell? id = some d) (hc : s.cell? c.id = some c)
    (h : Cell.Tracks s t.resolver pending c d) : id ∉ t.collectDeep id := by
  intro hm
  obtain ⟨b, hb, hreach⟩ := collectDeep_tracks hs indexed tracks hd h hm
  rw [hb.eq_id hs indexed hd hc h.name] at hreach
  exact hs.acyclic c.id hreach

/-- What a formula refers to stands for what it refers to in the sheet. -/
theorem references_of_compile (hc : s.cell? c.id = some c) {resolve : Resolver} {tree : Expr}
    (h : compile resolve c.formula = .ok tree) (hy : y ∈ tree.cells) :
    ∃ b, s.Namesake resolve b y ∧ s.Refers c.id b := by
  obtain ⟨e, v, he⟩ := hs.formulates hc
  rw [Expr.cells_eq] at hy
  obtain ⟨ref, hr, rfl⟩ := List.mem_map.mp hy
  have hresolve := (resolve_of_mem_refs h hr).2
  rw [eq_mapRefs_of_compile he.compiles h, Expr.refs_mapRefs] at hr
  obtain ⟨origin, horigin, rfl⟩ := List.mem_map.mp hr
  refine ⟨origin.id, ⟨origin.name, (resolve_of_mem_refs he.compiles horigin).2, hresolve⟩, ?_⟩
  rw [he.refers, Expr.cells_eq]
  exact List.mem_map_of_mem horigin

/-- A tree has a related value in the new sheet if its references lead to related values there. -/
theorem eval_under {Rel : Value → Value → Prop} (hrel : Respected Rel) {e : Expr} {v : Value}
    (he : e.eval s.context = .ok v) (refs : ∀ ref ∈ e.refs, ∀ b, s.cell? ref.id = some b →
      ∃ v', t.context.value (ref.under t.resolver) = .ok v' ∧ Rel b.value v') :
    ∃ v', (e.mapRefs (CellRef.under t.resolver)).eval t.context = .ok v' ∧ Rel v v' := by
  rw [Expr.eval_mapRefs]
  refine e.eval_related hrel (fun ref row col v h => ?_) (fun ref hr v hv => ?_) he
  · obtain ⟨c, hc, ht⟩ := isTable_of_element h
    rw [hs.formulas c (mem_of_cell? hc).1] at ht
    cases ht
  · obtain ⟨b, hb, -, -, rfl⟩ := context_value_eq_ok.mp hv
    exact refs ref hr b hb

/-- A tree that has a value refers only to cells of the new sheet that are without error, and that
stand for the cells that the tree of the sheet refers to. -/
theorem tracks_of_eval (indexed : t.Indexed) (tracks : ∀ x, s.TracksAt t True x)
    (h : Cell.Tracks s t.resolver pending c d) {tree e : Expr}
    {v w : Value} (ht : d.tree? = some tree) (he : s.Formulates c e v)
    (hw : tree.eval t.context = .ok w) {ref : CellRef} (hr : ref ∈ e.refs) :
    ∃ b b', b.id = ref.id ∧ s.cell? b.id = some b ∧ s.Refers c.id b.id ∧
      t.cell? (ref.under t.resolver).id = some b' ∧ b'.name = b.name ∧ b'.error = none := by
  have htree := eq_mapRefs_of_compile he.compiles (h.tree tree ht)
  have hunder : ref.under t.resolver ∈ tree.refs := by
    rw [htree, Expr.refs_mapRefs]
    exact List.mem_map_of_mem hr
  have hnamesake : s.Namesake t.resolver ref.id (ref.under t.resolver).id :=
    ⟨ref.name, (resolve_of_mem_refs he.compiles hr).2,
      (resolve_of_mem_refs (h.tree tree ht) hunder).2⟩
  have hrefers : s.Refers c.id ref.id := by
    rw [he.refers, Expr.cells_eq]
    exact List.mem_map_of_mem hr
  have hdefined := tree.eval_defined hw hunder
  obtain ⟨b', hb'⟩ := mem_ids_iff.mp (mem_ids_of_defined hdefined)
  obtain ⟨b, hb, htracks⟩ := tracks _ b' hb'
  have hid := hnamesake.eq_id hs indexed hb' hb htracks.name
  refine ⟨b, b', hid.symm, hb, hid ▸ hrefers, hb', htracks.name, ?_⟩
  rcases hdefined with ⟨u, hu⟩ | ⟨row, col, u, hu⟩
  · obtain ⟨b'', hb'', herror, -, -⟩ := context_value_eq_ok.mp hu
    obtain rfl := Option.some.inj (hb'.symm.trans hb'')
    exact herror
  · obtain ⟨b'', hb'', htable⟩ := isTable_of_element hu
    obtain rfl := Option.some.inj (hb'.symm.trans hb'')
    rw [htracks.table] at htable
    cases htable

theorem PlainFor.of_refers (h : s.PlainFor c) (hc : s.cell? c.id = some c) {b : Cell}
    (hb : s.cell? b.id = some b) (hr : s.Refers c.id b.id) :
    s.PlainFor b ∧ b.value.plain = b.value := by
  refine ⟨fun y hy => h y ?_, Value.plain_eq_self_iff.mpr (h b.id ?_ b hb)⟩
  · rw [hs.mem_deep hb] at hy
    exact (hs.mem_deep hc).mpr (.head hr hy)
  · exact (hs.mem_deep hc).mpr (.single hr)

/-- What the tree of a cell gives is the value that it shows, up to the sign of a zero, if it
depends on no negative zero. -/
theorem eval_tracks (indexed : t.Indexed) (others : ∀ x, x ≠ id → s.TracksAt t False x)
    (hd : t.cell? id = some d) (hc : s.cell? c.id = some c)
    (h : Cell.Tracks s t.resolver True c d) (plain : s.PlainFor c) {tree : Expr}
    (ht : d.tree? = some tree) {w : Value} (hw : tree.eval t.context = .ok w) :
    w.plain = c.value.plain := by
  obtain ⟨e, v, he⟩ := hs.formulates hc
  have htracks : ∀ x, s.TracksAt t True x := .of_others others hd hc h
  have hindexed := hs.kept.sound.indexed
  have hsame : ∃ v', (e.mapRefs (CellRef.under t.resolver)).eval t.context = .ok v' ∧ v = v' := by
    apply eval_under hs respected_eq he.evaluates
    intro ref hr b hb
    obtain ⟨b₁, b', hid, hb₁, hrefers, hb', hname, herror⟩ :=
      tracks_of_eval hs indexed htracks h ht he hw hr
    rw [← hid, hb₁] at hb
    obtain rfl := Option.some.inj hb
    have hne : (ref.under t.resolver).id ≠ id := by
      intro heq
      rw [heq, hd] at hb'
      obtain rfl := Option.some.inj hb'
      obtain rfl := hindexed.eq_of_name hb₁ hc (hname.symm.trans h.name)
      exact hs.acyclic b₁.id (.single hrefers)
    obtain ⟨b₂, hb₂, htracks₂⟩ := others _ hne b' hb'
    obtain rfl := hindexed.eq_of_name hb₁ hb₂ (hname.symm.trans htracks₂.name)
    obtain ⟨hplain, hvalue⟩ := plain.of_refers hs hc hb₁ hrefers
    refine ⟨b₁.value, context_value_eq_ok.mpr ⟨b', hb', herror, htracks₂.table, ?_⟩, rfl⟩
    exact (htracks₂.shown not_false hplain herror).trans hvalue
  obtain ⟨_, hv, rfl⟩ := hsame
  rw [← eq_mapRefs_of_compile he.compiles (h.tree tree ht), hw] at hv
  obtain rfl := Except.ok.inj hv
  exact (Value.same_iff.mp he.same).symm

end Fixed

end Sheet

theorem Cell.relink_ne {id : CellId} (old references : IdSet) {c : Cell} (h : c.id ≠ id) :
    ∃ referencedBy, relink id old references c = { c with referencedBy := referencedBy } := by
  simp only [relink, h, ↓reduceIte]
  split_ifs
  · exact ⟨_, rfl⟩
  · exact ⟨_, rfl⟩
  · exact ⟨_, rfl⟩

namespace Edit

open Sheet

variable {s : Sheet} {e e' : Edit} {id x : CellId} {c d : Cell} {pending : Prop}

theorem Within.tracksAt (hw : Within id e e') (hx : x ≠ id) (h : s.TracksAt e.sheet pending x) :
    s.TracksAt e'.sheet pending x :=
  h.of_cell?_eq (roster_eq_of_outline hw.outline) (hw.others x hx)

theorem Within.resolver_eq (hw : Within id e e') : e'.sheet.resolver = e.sheet.resolver :=
  resolver_eq_of_roster (roster_eq_of_outline hw.outline)

section Fixed

variable (hs : s.Flawless)
include hs

/-- Recomputing a cell makes it show no value but its own. -/
theorem recompute_tracks (indexed : e.sheet.Indexed)
    (others : ∀ x, x ≠ id → s.TracksAt e.sheet False x) (hd : e.sheet.cell? id = some d)
    (hc : s.cell? c.id = some c) (h : Cell.Tracks s e.sheet.resolver True c d) {tree : Expr}
    (ht : d.tree? = some tree) (x : CellId) : s.TracksAt (e.recompute id).sheet False x := by
  have hwithin := within_recompute e id
  by_cases hx : x = id
  · subst x
    rw [← hwithin.resolver_eq] at h
    obtain ⟨d', hd', houtcome⟩ := recompute_outcome hd
    refine .of_cell? hd' hc ?_
    cases houtcome with
    | structural hstructural heq =>
      subst heq
      refine ⟨h.name, h.formula, h.table, h.tree, h.references, h.deep, h.straight, h.value,
        fun _ _ hnone => ?_⟩
      simp [Cell.isStructural, hnone] at hstructural
    | treeless hnone =>
      rw [ht] at hnone
      cases hnone
    | below _ _ _ _ _ heq =>
      subst heq
      exact ⟨h.name, h.formula, h.table, h.tree, h.references, h.deep, fun hk => (by cases hk),
        h.value, fun _ _ hnone => (by cases hnone)⟩
    | failed _ _ _ _ _ _ heq =>
      subst heq
      exact ⟨h.name, h.formula, h.table, h.tree, h.references, h.deep, fun hk => (by cases hk),
        h.value, fun _ _ hnone => (by cases hnone)⟩
    | shown _ _ ht' _ v hv heq =>
      subst heq
      have hvalue : s.PlainFor c →
          (if d.value == v then d.value else v) = c.value.plain := by
        intro hplain
        rw [hwithin.resolver_eq] at h
        have heval := eval_tracks hs indexed others hd hc h hplain ht' hv
        rw [← heval]
        exact Value.plain_of_replaced (heval ▸ h.value hplain)
      exact ⟨h.name, h.formula, h.table, h.tree, h.references, h.deep,
        fun hk => (by cases hk), fun hplain => .inr (hvalue hplain),
        fun _ hplain _ => hvalue hplain⟩
  · exact hwithin.tracksAt hx (others x hx)

theorem refresh_tracks (indexed : e.sheet.Indexed) (tracks : ∀ x, s.TracksAt e.sheet False x)
    (x : CellId) : s.TracksAt (e.refresh id).sheet False x := by
  let e₁ := e.setDeep id (e.sheet.collectDeep id)
  have hwithin : Within id e e₁ := within_setDeep e id _
  have hindexed : e₁.sheet.Indexed := indexed.of_roster (roster_eq_of_outline hwithin.outline).symm
  by_cases hx : x = id
  · intro d' hd'
    obtain ⟨d, hd, -⟩ := cell?_outline (within_refresh e id).outline (hx ▸ hd')
    obtain ⟨c, hc, h⟩ := tracks id d hd
    have hcell := setDeep_cell? hd (e.sheet.collectDeep id)
    have hdeep : Cell.Tracks s e₁.sheet.resolver False c
        { d with deep := e.sheet.collectDeep id } := by
      rw [hwithin.resolver_eq]
      exact ⟨h.name, h.formula, h.table, h.tree, h.references,
        fun y hy => collectDeep_tracks hs indexed (fun x => (tracks x).mono False.elim) hd h hy,
        h.straight, h.value, h.shown⟩
    change (e₁.recompute id).sheet.cell? x = some d' at hd'
    change ∃ c, s.cell? c.id = some c ∧ Cell.Tracks s (e₁.recompute id).sheet.resolver False c d'
    cases ht : d.tree? with
    | none =>
      rw [recompute_of_treeless hcell ht] at hd' ⊢
      rw [hx] at hd'
      exact TracksAt.of_cell? hcell hc hdeep d' hd'
    | some tree =>
      exact recompute_tracks hs hindexed (fun x hx => hwithin.tracksAt hx (tracks x)) hcell hc
        (hdeep.mono False.elim) ht x d' hd'
  · exact (within_refresh e id).tracksAt hx (tracks x)

theorem refreshAll_tracks (indexed : e.sheet.Indexed) (tracks : ∀ x, s.TracksAt e.sheet False x)
    (order : List CellId) (x : CellId) : s.TracksAt (e.refreshAll order).sheet False x := by
  induction order generalizing e with
  | nil => exact tracks x
  | cons id rest ih =>
    apply ih (e := e.refresh id)
    · exact indexed.of_roster (roster_eq_of_outline (within_refresh e id).outline).symm
    · exact refresh_tracks hs indexed tracks

/-- A cell whose formula fails for now keeps its value. -/
theorem failDefinition_tracks (indexed : e.sheet.Indexed)
    (others : ∀ x, x ≠ id → s.TracksAt e.sheet False x) (hd : e.sheet.cell? id = some d)
    (hc : s.cell? c.id = some c) (h : Cell.Tracks s e.sheet.resolver True c d)
    (cause : FormulaError) (x : CellId) :
    s.TracksAt (e.failDefinition id cause).sheet False x := by
  let f : Cell → Cell := fun c => { c with content := .formula none, unresolved := cause.missing }
  have halters := faulted_alters e id cause
  have hwithin := within_setError (e.modify id f) id (some (.definition cause))
  apply refreshAll_tracks hs (halters.indexed indexed)
  intro x
  by_cases hx : x = id
  · rw [hx]
    rw [← resolver_eq_of_roster halters.roster] at h
    exact .of_cell? (faulted_cell? hd cause) hc ⟨h.name, h.formula, rfl,
      fun tree ht => (by cases ht), h.references,
      h.deep, fun hk => (by cases hk), h.value, fun _ _ hnone => (by cases hnone)⟩
  · exact (others x hx).of_cell?_eq halters.roster
      ((hwithin.others x hx).trans (cell?_modify_ne (f := f) (fun _ => rfl) e.sheet hx))

omit hs in
theorem setReferences_tracksAt (hd : e.sheet.cell? id = some d) (references : IdSet)
    (hx : x ≠ id) (h : s.TracksAt e.sheet pending x) :
    s.TracksAt (e.setReferences id references).sheet pending x := by
  intro d' hd'
  rw [setReferences_cell? hd] at hd'
  obtain ⟨d₀, hd₀, rfl⟩ := Option.map_eq_some_iff.mp hd'
  obtain ⟨c, hc, h⟩ := h d₀ hd₀
  have hne : d₀.id ≠ id := cell?_id hd₀ ▸ hx
  obtain ⟨referencedBy, hrelink⟩ := Cell.relink_ne d.references references hne
  rw [hrelink, resolver_eq_of_roster (setReferences_roster e id references)]
  exact ⟨c, hc, h.name, h.formula, h.table, h.tree, h.references, h.deep, h.straight, h.value,
    h.shown⟩

omit hs in
theorem planted_tracksAt (hd : e.sheet.cell? id = some d) (tree : Expr) (hx : x ≠ id)
    (h : s.TracksAt e.sheet pending x) : s.TracksAt (e.planted id tree).sheet pending x := by
  let f : Cell → Cell := fun c => { c with content := .formula (some tree), unresolved := [] }
  apply setReferences_tracksAt (modify_cell? (f := f) (fun _ => rfl) hd) tree.references hx
  exact h.of_cell?_eq (Alters.modify (f := f) (fun _ => rfl) e.sheet id).roster
    (cell?_modify_ne (f := f) (fun _ => rfl) e.sheet hx)

/-- A cell that has the tree of its formula refers to what the cell refers to that it stands for. -/
theorem planted_tracks (hd : e.sheet.cell? id = some d) (hc : s.cell? c.id = some c)
    (h : Cell.Tracks s e.sheet.resolver True c d) {tree : Expr}
    (compiles : compile e.sheet.resolver c.formula = .ok tree) :
    ∃ d', (e.planted id tree).sheet.cell? id = some d' ∧ d'.tree? = some tree ∧
      Cell.Tracks s (e.planted id tree).sheet.resolver True c d' := by
  obtain ⟨referencedBy, hcell⟩ := planted_cell? hd tree
  refine ⟨_, hcell, rfl, ?_⟩
  rw [resolver_eq_of_roster (planted_alters e id tree).roster]
  refine ⟨h.name, h.formula, rfl, fun tree' ht => ?_, fun y hy => ?_, h.deep, h.straight, h.value,
    fun hp => absurd trivial hp⟩
  · exact Option.some.inj ht ▸ compiles
  · exact references_of_compile hs hc compiles (Expr.mem_references.mp hy)

/-- Refreshing a cell makes it show no value but its own. -/
theorem refreshed_tracks (indexed : e.sheet.Indexed)
    (others : ∀ x, x ≠ id → s.TracksAt e.sheet False x) (hd : e.sheet.cell? id = some d)
    (hc : s.cell? c.id = some c) (h : Cell.Tracks s e.sheet.resolver True c d) {tree : Expr}
    (ht : d.tree? = some tree) (x : CellId) : s.TracksAt (e.refreshed id).sheet False x := by
  let deep := e.sheet.collectDeep id
  let e₁ := (e.setDeep id deep).clearStructural id
  have hwithin : Within id e e₁ := (within_setDeep e id deep).trans (within_clearStructural _ id)
  obtain ⟨error, hcell, hclear⟩ := clearStructural_cell? (setDeep_cell? hd deep)
  have hall : ∀ x, s.TracksAt e.sheet True x := .of_others others hd hc h
  refine recompute_tracks hs (indexed.of_roster (roster_eq_of_outline hwithin.outline).symm)
    (fun x hx => hwithin.tracksAt hx (others x hx)) hcell hc ?_ ht x
  rw [hwithin.resolver_eq]
  refine ⟨h.name, h.formula, h.table, h.tree, h.references,
    fun y hy => collectDeep_tracks hs indexed hall hd h hy, fun hk => ?_, h.value,
    fun hp => absurd trivial hp⟩
  rw [Cell.isStructural_iff.mpr (.inr hk)] at hclear
  cases hclear

/-- A cell that is settled on its tree closes no cycle and shows no value but its own. -/
theorem settle_tracks (indexed : e.sheet.Indexed)
    (others : ∀ x, x ≠ id → s.TracksAt e.sheet False x) (hd : e.sheet.cell? id = some d)
    (hc : s.cell? c.id = some c) (h : Cell.Tracks s e.sheet.resolver True c d) {tree : Expr}
    (compiles : compile e.sheet.resolver c.formula = .ok tree) (x : CellId) :
    s.TracksAt (e.settle id tree).sheet False x := by
  obtain ⟨d', hd', ht, htracks⟩ := planted_tracks hs hd hc h compiles
  have hindexed : (e.planted id tree).sheet.Indexed := (planted_alters e id tree).indexed indexed
  have hothers : ∀ x, x ≠ id → s.TracksAt (e.planted id tree).sheet False x :=
    fun x hx => planted_tracksAt hd tree hx (others x hx)
  have hall : ∀ x, s.TracksAt (e.planted id tree).sheet True x :=
    .of_others hothers hd' hc htracks
  rw [settle_eq, if_neg (not_mem_collectDeep hs hindexed hall hd' hc htracks)]
  apply refreshAll_tracks hs
  · exact hindexed.of_roster (roster_eq_of_outline (within_refreshed _ id).outline).symm
  · exact refreshed_tracks hs hindexed hothers hd' hc htracks ht

/-- Settling a cell on its formula makes it show no value but its own. -/
theorem applyFormula_tracks (indexed : e.sheet.Indexed)
    (others : ∀ x, x ≠ id → s.TracksAt e.sheet False x) (here : s.TracksAt e.sheet True id)
    (x : CellId) : s.TracksAt (e.applyFormula id).sheet False x := by
  rcases applyFormula_cases e id with ⟨d, hd, ht⟩ | ⟨hstay, htable⟩
  · obtain ⟨c, hc, h⟩ := here d hd
    simp only [applyFormula, hd, ht, Bool.false_eq_true, ↓reduceIte, h.formula]
    cases hcompile : compile e.sheet.resolver c.formula with
    | error cause => exact failDefinition_tracks hs indexed others hd hc h cause x
    | ok tree => exact settle_tracks hs indexed others hd hc h hcompile x
  · rw [hstay]
    by_cases hx : x = id
    · intro d hd
      obtain ⟨c, -, h⟩ := here d (hx ▸ hd)
      have hformula := h.table
      rw [htable d (hx ▸ hd)] at hformula
      cases hformula
    · exact others x hx

theorem rebind_tracks (indexed : e.sheet.Indexed) (tracks : ∀ x, s.TracksAt e.sheet False x)
    (name : String) (x : CellId) : s.TracksAt (e.rebind name).sheet False x := by
  have hboth := rebind_invariant (fun t => t.Indexed ∧ ∀ x, s.TracksAt t False x)
    (fun e id ⟨hindexed, htracks⟩ => ?_) ⟨indexed, tracks⟩ name
  · exact hboth.2 x
  · exact ⟨hindexed.of_roster (applyFormula_roster e id).symm,
      applyFormula_tracks hs hindexed (fun x _ => htracks x) ((htracks id).mono False.elim)⟩

end Fixed

end Edit

end LiveSheet
