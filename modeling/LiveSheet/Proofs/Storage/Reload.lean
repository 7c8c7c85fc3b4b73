import LiveSheet.Proofs.Storage.Loading

namespace LiveSheet

open Relation

theorem Value.Same.text?_eq {v w : Value} (h : v.Same w) : v.text? = w.text? :=
  h.congr rfl

namespace Sheet

variable {s t : Sheet} {x y : CellId} {b c d : Cell} {name : String}

namespace Loading

variable (hs : s.Flawless) (h : Loading s s.cells t)
include hs h

/-- All names of the sheet have come up. -/
theorem exists_namesake (hb : s.idOf? name = some x) : ∃ y, t.idOf? name = some y := by
  rw [h.kept.sound.indexed.exists_idOf?, h.names, ← hs.kept.sound.indexed.exists_idOf?]
  exact ⟨x, hb⟩

/-- In the end every cell has the tree of its formula. -/
theorem tree?_eq (hd : t.cell? y = some d) (ht : Cell.Tracks s t.resolver False c d)
    {e : Expr} {v : Value} (he : s.Formulates c e v) :
    d.isStructural = false ∧ d.tree? = some (e.mapRefs (CellRef.under t.resolver)) := by
  have hcompile : compile t.resolver c.formula = .ok (e.mapRefs (CellRef.under t.resolver)) := by
    apply compile_under he.compiles
    intro ref hr
    obtain ⟨y, hy⟩ := h.exists_namesake hs (resolve_of_mem_refs he.compiles hr).2
    rw [resolver, hy]
    exact Option.some_ne_none y
  have halert := h.kept.alert.cells y d hd ht.table
  have hsane : d.isStructural = false := by
    rw [Bool.eq_false_iff, Ne, Cell.isStructural_iff]
    rintro (hk | hk)
    · have hhopeless := halert.hopeless (h.kept.settings_eq ▸ Settings.default_proper) hk
      rw [← ht.formula] at hcompile
      exact hhopeless t.resolver (fun name hn => halert.dead name hn (by simp)) _ hcompile
    · exact ht.straight hk
  refine ⟨hsane, ?_⟩
  cases htree : d.tree? with
  | none =>
    rw [(h.kept.sound.classified y d hd ht.table).mp htree] at hsane
    cases hsane
  | some tree => rw [Except.ok.inj ((ht.tree tree htree).symm.trans hcompile)]

/-- A cell of the sheet has been made anew. -/
theorem tracks_of_name (hd : t.cell? y = some d) (hc : s.cell? c.id = some c)
    (name : d.name = c.name) : Cell.Tracks s t.resolver False c d := by
  obtain ⟨c', hc', ht⟩ := h.tracks y d hd
  obtain rfl := hs.kept.sound.indexed.eq_of_name hc' hc (ht.name.symm.trans name)
  exact ht

/-- What a reference of a cell leads to in the end. -/
theorem cell?_under {e : Expr} {v : Value} (he : s.Formulates c e v) {ref : CellRef}
    (hr : ref ∈ e.refs) (hb : s.cell? ref.id = some b) :
    t.resolver ref.name = some (ref.under t.resolver).id ∧
      ∃ b', t.cell? (ref.under t.resolver).id = some b' ∧ b'.name = b.name := by
  have hresolve := (resolve_of_mem_refs he.compiles hr).2
  obtain ⟨y, hy⟩ := h.exists_namesake hs hresolve
  have hunder : (ref.under t.resolver).id = y := by simp [CellRef.under, resolver, hy]
  obtain ⟨b', hb', hname⟩ := (h.kept.sound.indexed.names ref.name y).mp hy
  obtain ⟨b₁, hb₁, hname₁⟩ := (hs.kept.sound.indexed.names ref.name ref.id).mp hresolve
  obtain rfl := Option.some.inj (hb.symm.trans hb₁)
  rw [hunder]
  exact ⟨hy, b', hb', hname.trans hname₁.symm⟩

/-- In the end a cell is without error if all those are that it depends on. -/
theorem error_eq_none_of_refers (hc : s.cell? c.id = some c) (hd : t.cell? y = some d)
    (name : d.name = c.name) (below : ∀ b z d', TransGen s.Refers c.id b.id →
      s.cell? b.id = some b → t.cell? z = some d' → d'.name = b.name →
      d'.error = none ∧ b.value.text? = d'.value.text?) :
    d.error = none ∧ c.value.text? = d.value.text? := by
  obtain ⟨e, v, he⟩ := hs.formulates hc
  have ht := h.tracks_of_name hs hd hc name
  obtain ⟨hsane, htree⟩ := h.tree?_eq hs hd ht he
  have hcurrent := ((h.kept.sound.upToDate y).settled d hd ht.table).current hsane (by
    rintro z - ⟨d', hd', hk⟩
    obtain ⟨b, -, hb⟩ := h.tracks z d' hd'
    exact hb.straight hk)
  obtain ⟨tree, htree', hyields⟩ := hcurrent.yields (by
    rintro ⟨z, hz, herror⟩
    cases hd' : t.cell? z with
    | none => simp [hasError, hd'] at herror
    | some d' =>
      obtain ⟨b, hb, hreach⟩ := ht.deep z hz
      obtain ⟨b', hb', htb⟩ := h.tracks z d' hd'
      rw [hb.eq_id hs h.kept.sound.indexed hd' hb' htb.name] at hreach
      obtain ⟨hnone, -⟩ := below b' z d' hreach hb' hd' htb.name
      simp [hasError, hd', Cell.hasError, hnone] at herror)
  obtain ⟨v', hv', htext⟩ := eval_under hs respected_text he.evaluates (t := t) (by
    intro ref hr b hb
    obtain ⟨-, b', hb', hname⟩ := h.cell?_under hs he hr hb
    have hrefers : s.Refers c.id b.id := by
      rw [he.refers, Expr.cells_eq, cell?_id hb]
      exact List.mem_map_of_mem hr
    have hcell : s.cell? b.id = some b := cell?_id hb ▸ hb
    obtain ⟨hnone, hkind⟩ := below b _ b' (.single hrefers) hcell hb' hname
    have htable := (h.tracks_of_name hs hb' hcell hname).table
    exact ⟨b'.value, context_value_eq_ok.mpr ⟨b', hb', hnone, htable, rfl⟩, hkind⟩)
  rw [htree] at htree'
  unfold Yields at hyields
  rw [← Option.some.inj htree', hv'] at hyields
  exact ⟨hyields.1, he.same.text?_eq.trans (htext.trans hyields.2.text?_eq.symm)⟩

/-- In the end no cell is in error, as the cells that it depends on have values of
the same kinds. -/
theorem error_eq_none (hc : s.cell? c.id = some c) (hd : t.cell? y = some d)
    (name : d.name = c.name) : d.error = none ∧ c.value.text? = d.value.text? := by
  have hall : ∀ b z d', b.id = c.id → s.cell? b.id = some b → t.cell? z = some d' →
      d'.name = b.name → d'.error = none ∧ b.value.text? = d'.value.text? := by
    refine hs.kept.sound.linked.wellFoundedOn.induction (mem_ids_iff.mpr ⟨c, hc⟩)
      (P := fun x => ∀ b z d', b.id = x →
      s.cell? b.id = some b → t.cell? z = some d' → d'.name = b.name →
        d'.error = none ∧ b.value.text? = d'.value.text?) ?_
    rintro _ - ih b z d' rfl hb hd' hname
    refine h.error_eq_none_of_refers hs hb hd' hname fun b' z' d'' hreach hb' => ?_
    exact ih b'.id (mem_ids_iff.mpr ⟨b', hb'⟩) hreach b' z' d'' rfl hb'
  exact hall c y d rfl hc hd name

theorem value_eq (hc : s.cell? c.id = some c) (hd : t.cell? y = some d) (name : d.name = c.name)
    (plain : s.PlainFor c) : d.value = c.value.plain :=
  (h.tracks_of_name hs hd hc name).shown not_false plain (h.error_eq_none hs hc hd name).1

theorem mem_references_iff {e : Expr} {v : Value} (he : s.Formulates c e v)
    (hd : t.cell? y = some d) (ht : Cell.Tracks s t.resolver False c d) (x : CellId) :
    x ∈ d.references ↔ ∃ ref ∈ e.refs, (ref.under t.resolver).id = x := by
  obtain ⟨-, htree⟩ := h.tree?_eq hs hd ht he
  rw [h.kept.sound.bound.references y d _ hd htree, Expr.cells_eq, Expr.refs_mapRefs,
    List.map_map, List.mem_map]
  refine ⟨And.left, fun hx => ⟨hx, ?_⟩⟩
  obtain ⟨ref, hr, rfl⟩ := hx
  obtain ⟨b, hb⟩ := he.live hs.kept.sound.indexed hr
  obtain ⟨-, b', hb', -⟩ := h.cell?_under hs he hr hb
  exact mem_ids_iff.mpr ⟨b', hb'⟩

theorem idOf?_iff {e : Expr} {v : Value} (he : s.Formulates c e v) {ref : CellRef}
    (hr : ref ∈ e.refs) (n : String) :
    s.idOf? n = some ref.id ↔ t.idOf? n = some (ref.under t.resolver).id := by
  have hresolve := (resolve_of_mem_refs he.compiles hr).2
  obtain ⟨b, hb⟩ := he.live hs.kept.sound.indexed hr
  obtain ⟨hunder, -⟩ := h.cell?_under hs he hr hb
  constructor
  · intro hn
    rw [hs.kept.sound.indexed.name_eq hn hresolve]
    exact hunder
  · intro hn
    rw [h.kept.sound.indexed.name_eq hn hunder]
    exact hresolve

/-- In the end a cell refers to the cells of the same names. -/
theorem references_iff (hc : s.cell? c.id = some c) (hd : t.cell? y = some d)
    (name : d.name = c.name) (n : String) : (∃ x ∈ c.references, s.idOf? n = some x) ↔
      ∃ x ∈ d.references, t.idOf? n = some x := by
  obtain ⟨e, v, he⟩ := hs.formulates hc
  have ht := h.tracks_of_name hs hd hc name
  constructor
  · rintro ⟨x, hx, hn⟩
    obtain ⟨ref, hr, rfl⟩ := (he.mem_references_iff hc x).mp hx
    exact ⟨_, (h.mem_references_iff hs he hd ht _).mpr ⟨ref, hr, rfl⟩,
      (h.idOf?_iff hs he hr n).mp hn⟩
  · rintro ⟨x, hx, hn⟩
    obtain ⟨ref, hr, rfl⟩ := (h.mem_references_iff hs he hd ht x).mp hx
    exact ⟨_, (he.mem_references_iff hc _).mpr ⟨ref, hr, rfl⟩, (h.idOf?_iff hs he hr n).mpr hn⟩

/-- What holds of all cells that were made anew holds of the cells in their order. -/
theorem forall₂ {Holds : Cell → Cell → Prop}
    (cells : ∀ c d, s.cell? c.id = some c → t.cell? d.id = some d → d.name = c.name → Holds c d) :
    List.Forall₂ Holds s.cells t.cells := by
  have hnames : List.Forall₂ (fun c d => d.name = c.name) s.cells t.cells := by
    have hmap : List.Forall₂ (· = ·) (s.cells.map Cell.name) (t.cells.map Cell.name) := by
      rw [List.forall₂_eq_eq_eq, h.names]
    rw [List.forall₂_map_left_iff, List.forall₂_map_right_iff] at hmap
    exact hmap.imp fun _ _ hn => hn.symm
  obtain ⟨hlength, hzip⟩ := List.forall₂_iff_zip.mp hnames
  refine List.forall₂_iff_zip.mpr ⟨hlength, fun hm => ?_⟩
  obtain ⟨hc, hd⟩ := List.of_mem_zip hm
  exact cells _ _ (cell?_of_mem hs.kept.sound.indexed.nodup hc)
    (cell?_of_mem h.kept.sound.indexed.nodup hd) (hzip hm)

/-- If no value has changed, there was no negative zero: the first one would have. -/
theorem ne_negative_zero (same : List.Forall₂ (fun c d => d.value = c.value) s.cells t.cells)
    (hc : c ∈ s.cells) : c.value ≠ .float (-0) := by
  have hindexed := hs.kept.sound.indexed
  have hsame : ∀ b ∈ s.cells, ∃ d ∈ t.cells, d.name = b.name ∧ d.value = b.value := by
    intro b hb
    have hboth := h.forall₂ hs fun _ _ _ _ hname => hname
    obtain ⟨i, hi, rfl⟩ := List.mem_iff_getElem.mp hb
    have hi' : i < t.cells.length := hboth.length_eq ▸ hi
    exact ⟨t.cells[i], List.getElem_mem hi', hboth.get hi hi', same.get hi hi'⟩
  have hall : ∀ b, b.id = c.id → s.cell? b.id = some b → b.value ≠ .float (-0) := by
    have hlive := cell?_of_mem hindexed.nodup hc
    refine hs.kept.sound.linked.wellFoundedOn.induction (mem_ids_iff.mpr ⟨c, hlive⟩)
      (P := fun x => ∀ b, b.id = x →
      s.cell? b.id = some b → b.value ≠ .float (-0)) ?_
    rintro _ - ih b rfl hb
    obtain ⟨d, hd, hname, hvalue⟩ := hsame b (mem_of_cell? hb).1
    have hplain : s.PlainFor b := by
      intro y hy b' hb'
      obtain rfl := cell?_id hb'
      exact ih b'.id (mem_ids_iff.mpr ⟨b', hb'⟩) ((hs.mem_deep hb).mp hy) b' rfl hb'
    have hshown := h.value_eq hs hb (cell?_of_mem h.kept.sound.indexed.nodup hd) hname hplain
    exact Value.plain_eq_self_iff.mp (hshown.symm.trans hvalue)
  exact hall c rfl (cell?_of_mem hindexed.nodup hc)

end Loading

end Sheet

/-- A cell that was made anew is without error, and says and refers to the same as the old one. -/
structure Cell.Restores (s t : Sheet) (c d : Cell) : Prop where
  name : d.name = c.name
  formula : d.formula = c.formula
  table : d.isTable = false
  clean : d.hasError = false
  references : ∀ name, (∃ x ∈ c.references, s.idOf? name = some x) ↔
    ∃ x ∈ d.references, t.idOf? name = some x
  value : s.PlainFor c → d.value = c.value.plain

namespace Sheet

theorem Loading.restores {s t : Sheet} (h : Loading s s.cells t) (hs : s.Flawless) :
    List.Forall₂ (Cell.Restores s t) s.cells t.cells := by
  apply h.forall₂ hs
  intro c d hc hd hname
  have ht := h.tracks_of_name hs hd hc hname
  obtain ⟨herror, -⟩ := h.error_eq_none hs hc hd hname
  exact ⟨hname, ht.formula, ht.table, by simp [Cell.hasError, herror],
    h.references_iff hs hc hd hname, h.value_eq hs hc hd hname⟩

/-- The values of a sheet are told from its formulas if none is the negative zero. -/
theorem Loading.values_eq_iff {s t : Sheet} (h : Loading s s.cells t) (hs : s.Flawless) :
    List.Forall₂ (fun c d => d.value = c.value) s.cells t.cells ↔
      ∀ c ∈ s.cells, c.value ≠ .float (-0) := by
  refine ⟨fun same c hc => h.ne_negative_zero hs same hc, fun hne => ?_⟩
  apply h.forall₂ hs
  intro c d hc hd hname
  have hplain : s.PlainFor c := fun y _ b hb => hne b (mem_of_cell? hb).1
  rw [h.value_eq hs hc hd hname hplain]
  exact Value.plain_eq_self_iff.mpr (hne c (mem_of_cell? hc).1)

end Sheet

/-- After any operations that leave formula cells without error, a restored sheet has the same
cells, and the same values exactly if none of them is the negative zero. A cell that depends on none
has the same value up to the sign of a zero. -/
theorem Session.run_restore (operations : List Operation) :
    let s := ((Session.new .default).run operations).sheet
    (∀ c ∈ s.cells, c.isTable = false) → (∀ c ∈ s.cells, c.hasError = false) →
      ∃ t, (Document.ofSheet s).restore = .ok t ∧
        List.Forall₂ (Cell.Restores s t) s.cells t.cells ∧
        (List.Forall₂ (fun c d => d.value = c.value) s.cells t.cells ↔
          ∀ c ∈ s.cells, c.value ≠ .float (-0)) := by
  intro s hformulas hclean
  have hs : s.Flawless :=
    ⟨run_kept .default operations, hformulas, fun c hc => by
      simpa [Cell.hasError] using hclean c hc⟩
  obtain ⟨t, hrestore, hloading⟩ := Sheet.restore_loading hs
  exact ⟨t, hrestore, hloading.restores hs, hloading.values_eq_iff hs⟩

set_option maxRecDepth 20000 in
/-- Two cells, of which the second refers to the first one, which was deleted and made anew. -/
theorem Session.run_restore_recreated :
    let s := ((Session.new .default).run
      [.createCell (some "a") (some "true"), .createCell (some "b") (some "a"),
        .deleteCell ⟨1⟩, .createCell (some "a") (some "true")]).sheet
    (∀ c ∈ s.cells, c.isTable = false) ∧ (∀ c ∈ s.cells, c.hasError = false) ∧
      ∃ t, (Document.ofSheet s).restore = .ok t ∧
        List.Forall₂ (Cell.Restores s t) s.cells t.cells ∧
        (List.Forall₂ (fun c d => d.value = c.value) s.cells t.cells ↔
          ∀ c ∈ s.cells, c.value ≠ .float (-0)) := by
  have hstate : ((Session.new .default).run
      [.createCell (some "a") (some "true"), .createCell (some "b") (some "a"),
        .deleteCell ⟨1⟩, .createCell (some "a") (some "true")]).sheet.cells.map
          (fun c => (c.isTable, c.hasError)) = [(false, false), (false, false)] := by
    cbv
  have hcells : ∀ cells : List Cell,
      cells.map (fun c => (c.isTable, c.hasError)) = [(false, false), (false, false)] →
        ∀ c ∈ cells, c.isTable = false ∧ c.hasError = false := by
    intro cells hmap
    have hall : ∀ flags ∈ cells.map fun c => (c.isTable, c.hasError),
        flags.1 = false ∧ flags.2 = false := by
      simp [hmap]
    exact List.forall_mem_map.mp hall
  intro s
  have hformulas : ∀ c ∈ s.cells, c.isTable = false := fun c hc => (hcells _ hstate c hc).1
  have hclean : ∀ c ∈ s.cells, c.hasError = false := fun c hc => (hcells _ hstate c hc).2
  exact ⟨hformulas, hclean, run_restore _ hformulas hclean⟩

set_option maxRecDepth 20000 in
/-- A sheet with one cell, which is true. -/
theorem Session.run_true :
    (Session.new .default).run [.createCell (some "a") (some "true")] =
      ⟨⟨.default, [⟨⟨1⟩, "a", "true", .formula (some (.literal (.boolean true))), .boolean true,
        none, ∅, ∅, ∅, []⟩], [("a", ⟨1⟩)], 1, 0⟩, .none⟩ := by
  cbv

set_option maxRecDepth 20000 in
/-- The sheet of a cell that was true before it became the negative zero. -/
theorem Session.run_negative_zero :
    ((Session.new .default).run
        [.createCell (some "a") (some "true"), .setFormula ⟨1⟩ "-0"]).sheet.cells =
      [⟨⟨1⟩, "a", "-0", .formula (some (.unary .minus (.literal (.float 0)))), .float (-0), none,
        ∅, ∅, ∅, []⟩] := by
  change (((Session.new .default).run [.createCell (some "a") (some "true")]).run
    [.setFormula ⟨1⟩ "-0"]).sheet.cells = _
  rw [run_true]
  cbv

/-- A negative zero becomes positive, as a new cell keeps its first value in place of one that is
equal to it. -/
theorem Session.run_restore_negative_zero :
    let s := ((Session.new .default).run
      [.createCell (some "a") (some "true"), .setFormula ⟨1⟩ "-0"]).sheet
    (∀ c ∈ s.cells, c.isTable = false ∧ c.hasError = false) ∧
      s.cells.map Cell.value = [.float (-0)] ∧
      ∃ t, (Document.ofSheet s).restore = .ok t ∧ t.cells.map Cell.value = [.float 0] ∧
        t.cells.map Cell.value ≠ s.cells.map Cell.value := by
  intro s
  have hcells := run_negative_zero
  change s.cells = _ at hcells
  have hall : ∀ c ∈ s.cells, c.isTable = false ∧ c.error = none ∧ c.deep = ∅ := by
    intro c hc
    rw [hcells, List.mem_singleton] at hc
    subst hc
    exact ⟨rfl, rfl, rfl⟩
  have hs : s.Flawless :=
    ⟨run_kept .default _, fun c hc => (hall c hc).1, fun c hc => (hall c hc).2.1⟩
  obtain ⟨t, hrestore, hloading⟩ := Sheet.restore_loading hs
  have hvalues : s.cells.map Cell.value = [.float (-0)] := by rw [hcells]; rfl
  have hrestored : (s.cells.map Cell.value).map Value.plain = t.cells.map Cell.value := by
    rw [List.map_map, ← List.forall₂_eq_eq_eq, List.forall₂_map_left_iff,
      List.forall₂_map_right_iff]
    apply hloading.forall₂ hs
    intro c d hc hd hname
    refine (hloading.value_eq hs hc hd hname fun y hy => ?_).symm
    rw [(hall c (Sheet.mem_of_cell? hc).1).2.2] at hy
    exact absurd hy IdSet.not_mem_empty
  rw [hvalues] at hrestored
  refine ⟨fun c hc => ⟨(hall c hc).1, by simp [Cell.hasError, (hall c hc).2.1]⟩, hvalues, t,
    hrestore,
    hrestored.symm, ?_⟩
  rw [← hrestored, hvalues]
  decide

end LiveSheet
