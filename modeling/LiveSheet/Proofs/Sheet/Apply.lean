import LiveSheet.Proofs.Sheet.Sound

namespace LiveSheet

open Relation

namespace Sheet

theorem DeepAt.of_wiring {s t : Sheet} {id : CellId} (h : s.DeepAt id)
    (hw : s.wiring = t.wiring) (hd : t.deepOf id = s.deepOf id) : t.DeepAt id := by
  intro x
  rw [hd, Refers, ← referencesOf_eq_of_wiring hw]
  exact h x

/-- A cell that collects from its references without meeting itself closes no cycle. -/
theorem Alters.not_reaches_of_collectDeep {s t : Sheet} {id : CellId} (h : s.Alters t id)
    (sound : s.SoundBut id) (apart : id ∉ t.collectDeep id) {r : CellId}
    (hr : r ∈ t.referencesOf id) : r ≠ id ∧ ¬TransGen s.Refers r id := by
  have hne : r ≠ id := fun he => apart (mem_collectDeep.mpr ⟨r, hr, .inl he.symm⟩)
  refine ⟨hne, fun hreach => apart (mem_collectDeep.mpr ⟨r, hr, .inr ?_⟩)⟩
  rw [(h.others r hne).deepOf]
  exact ((sound.upToDate r hne).deep id).mpr hreach

theorem Alters.acyclic_of_collectDeep {s t : Sheet} {id : CellId} (h : s.Alters t id)
    (sound : s.SoundBut id) (apart : id ∉ t.collectDeep id) : Acyclic t.referencesOf := by
  apply h.acyclic sound.linked.acyclic
  intro hcycle
  obtain ⟨r, hr, hback⟩ := TransGen.head'_iff.mp hcycle
  obtain ⟨hne, hnot⟩ := h.not_reaches_of_collectDeep sound apart hr
  rcases reflTransGen_iff_eq_or_transGen.mp hback with he | hback
  · exact hne he.symm
  · exact hnot ((h.reaches_iff hne).mpr hback)

theorem Alters.deep_of_collectDeep {s t : Sheet} {id : CellId} (h : s.Alters t id)
    (sound : s.SoundBut id) (live : id ∈ s.ids) (apart : id ∉ t.collectDeep id) {x : CellId} :
    x ∈ t.collectDeep id ↔ TransGen t.Refers id x := by
  apply mem_collectDeep_iff
  intro r hr
  obtain ⟨hne, hnot⟩ := h.not_reaches_of_collectDeep sound apart hr
  exact (h.upToDate sound live hne hnot).deep

end Sheet

/-- The name that a formula waits for once it has failed. -/
def FormulaError.missing : FormulaError → List String
  | .unknownCell name => [name]
  | _ => []

namespace Edit

variable {e e' : Edit} {id : CellId} {c : Cell}

theorem modify_cell? {f : Cell → Cell} (hf : ∀ c, (f c).id = c.id)
    (hc : e.sheet.cell? id = some c) : (e.modify id f).sheet.cell? id = some (f c) := by
  have hm := Sheet.cell?_modify_self hf e.sheet id
  rw [hc] at hm
  exact hm

theorem clearStructural_cell? (hc : e.sheet.cell? id = some c) :
    ∃ error, (e.clearStructural id).sheet.cell? id = some { c with error := error } ∧
      ({ c with error := error } : Cell).isStructural = false := by
  unfold clearStructural
  rw [hc, Option.any_some]
  by_cases hs : c.isStructural = true
  · rw [if_pos hs]
    exact ⟨none, setError_cell? hc none, rfl⟩
  · rw [if_neg hs]
    exact ⟨c.error, hc, by simpa using hs⟩

/-- The sheet in which a cell has lost its tree to a fault of its formula, before what depends on
the cell is settled. -/
def faulted (e : Edit) (id : CellId) (cause : FormulaError) : Edit :=
  (e.modify id fun c =>
    { c with content := .formula none, unresolved := cause.missing }).setError id
    (some (.definition cause))

theorem failDefinition_eq (e : Edit) (id : CellId) (cause : FormulaError) :
    e.failDefinition id cause = (e.faulted id cause).propagate id :=
  rfl

theorem faulted_cell? (hc : e.sheet.cell? id = some c) (cause : FormulaError) :
    (e.faulted id cause).sheet.cell? id = some { c with
      content := .formula none, unresolved := cause.missing, error := some (.definition cause) } :=
  setError_cell? (modify_cell?
    (f := fun c => { c with content := .formula none, unresolved := cause.missing })
    (fun _ => rfl) hc) _

theorem faulted_alters (e : Edit) (id : CellId) (cause : FormulaError) :
    e.sheet.Alters (e.faulted id cause).sheet id := by
  let f : Cell → Cell := fun c => { c with content := .formula none, unresolved := cause.missing }
  have hmodify : e.sheet.Alters (e.modify id f).sheet id :=
    .modify (f := f) (fun _ => rfl) e.sheet id
  exact hmodify.trans (.of_within (within_setError (e.modify id f) id _))

theorem faulted_wiring (e : Edit) (id : CellId) (cause : FormulaError) :
    (e.faulted id cause).sheet.wiring = e.sheet.wiring := by
  let f : Cell → Cell := fun c => { c with content := .formula none, unresolved := cause.missing }
  have hmodify := Sheet.wiring_modify (f := f) (fun _ => rfl) e.sheet id
  exact (Sheet.wiring_eq_of_outline (within_setError (e.modify id f) id _).outline).trans hmodify

/-- A definition error leaves a sound sheet. -/
theorem failDefinition_sound (sound : e.sheet.SoundBut id) (hc : e.sheet.cell? id = some c)
    (cause : FormulaError) : (e.failDefinition id cause).sheet.Sound := by
  have hcell := faulted_cell? hc cause
  have halters := faulted_alters e id cause
  have hwiring := (faulted_wiring e id cause).symm
  have hdeep : (e.faulted id cause).sheet.deepOf id = e.sheet.deepOf id := by
    rw [Sheet.deepOf_of_cell? hcell, Sheet.deepOf_of_cell? hc]
  apply propagate_sound halters sound (Sheet.mem_ids_iff.mpr ⟨c, hc⟩)
    (sound.linked.of_wiring hwiring)
  · apply halters.bound_of_treeless sound.bound
    intro d hd
    obtain rfl := Option.some.inj (hcell.symm.trans hd)
    rfl
  · intro d hd _
    obtain rfl := Option.some.inj (hcell.symm.trans hd)
    exact ⟨fun _ => rfl, fun _ => rfl⟩
  · refine ⟨sound.deep.of_wiring hwiring hdeep, fun d hd _ => ?_⟩
    obtain rfl := Option.some.inj (hcell.symm.trans hd)
    exact Sheet.settled_of_structural rfl

/-- A cell with new references and a new tree, once its transitive references are in line with them,
its structural error is cleared and its value recomputed. -/
def refreshed (e : Edit) (id : CellId) : Edit :=
  ((e.setDeep id (e.sheet.collectDeep id)).clearStructural id).recompute id

theorem within_refreshed (e : Edit) (id : CellId) : Within id e (e.refreshed id) :=
  ((within_setDeep e id _).trans (within_clearStructural _ id)).trans (within_recompute _ id)

theorem refreshed_cell? {tree : Expr} (hc : e.sheet.cell? id = some c)
    (htree : c.content = .formula (some tree)) (unnamed : id ∉ tree.cells)
    (apart : id ∉ e.sheet.collectDeep id) :
    ∃ d, (e.refreshed id).sheet.cell? id = some d ∧ d.tree? = some tree ∧
      d.isStructural = false ∧ d.references = c.references ∧
        d.deep = e.sheet.collectDeep id ∧ (e.refreshed id).sheet.Settled d := by
  let deep := e.sheet.collectDeep id
  obtain ⟨error, hcell, hclear⟩ := clearStructural_cell? (setDeep_cell? hc deep)
  have htree' : ({ c with deep := deep, error := error } : Cell).tree? = some tree := by
    simp [Cell.tree?, htree]
  obtain ⟨d, hd, hdeep, hcontent, hstructural, hsettled⟩ := recompute_settled hcell
    (by rw [htree', hclear]; simp) apart (by rw [htree']; rintro _ ⟨⟩; exact unnamed)
  obtain ⟨d', hd', ho⟩ := Sheet.cell?_outline (within_refreshed e id).outline hd
  obtain rfl := Option.some.inj (hc.symm.trans hd')
  have hrefs : c.outline.references = d.outline.references := by rw [ho]
  refine ⟨d, hd, ?_, hstructural.trans hclear, hrefs.symm, hdeep, hsettled⟩
  rw [Cell.tree?, hcontent]
  exact htree'

/-- The sheet in which a cell has a tree and the references of that, before anything is settled. -/
def planted (e : Edit) (id : CellId) (tree : Expr) : Edit :=
  (e.modify id fun c => { c with content := .formula (some tree), unresolved := [] }).setReferences
    id tree.references

theorem settle_eq (e : Edit) (id : CellId) (tree : Expr) : e.settle id tree =
    if id ∈ (e.planted id tree).sheet.collectDeep id then (e.planted id tree).breakCycle id
    else ((e.planted id tree).refreshed id).propagate id :=
  rfl

theorem planted_cell? (hc : e.sheet.cell? id = some c) (tree : Expr) :
    ∃ referencedBy, (e.planted id tree).sheet.cell? id = some { c with
      content := .formula (some tree), unresolved := [], references := tree.references,
      referencedBy := referencedBy } :=
  setReferences_cell?_self (modify_cell?
    (f := fun c => { c with content := .formula (some tree), unresolved := [] })
    (fun _ => rfl) hc) tree.references

theorem planted_alters (e : Edit) (id : CellId) (tree : Expr) :
    e.sheet.Alters (e.planted id tree).sheet id := by
  let f : Cell → Cell := fun c => { c with content := .formula (some tree), unresolved := [] }
  have hmodify : e.sheet.Alters (e.modify id f).sheet id :=
    .modify (f := f) (fun _ => rfl) e.sheet id
  exact hmodify.trans (.setReferences (e.modify id f) id _)

/-- Settling on a tree that closes no cycle leaves a sound sheet. -/
theorem settleAcyclic_sound {tree : Expr} (sound : e.sheet.SoundBut id)
    (alters : e.sheet.Alters e'.sheet id) (hc : e'.sheet.cell? id = some c)
    (htree : c.content = .formula (some tree)) (hrefs : c.references = tree.references)
    (inverse : e'.sheet.Mutual) (live : ∀ x ∈ tree.cells, x ∈ e.sheet.ids)
    (apart : id ∉ e'.sheet.collectDeep id) : ((e'.refreshed id).propagate id).sheet.Sound := by
  have hid : id ∈ e.sheet.ids := alters.ids_eq ▸ Sheet.mem_ids_iff.mpr ⟨c, hc⟩
  have hunnamed : id ∉ tree.cells := by
    intro hm
    have hr : id ∈ e'.sheet.referencesOf id := by
      rw [Sheet.referencesOf_of_cell? hc, hrefs]
      exact Expr.mem_references.mpr hm
    exact (alters.not_reaches_of_collectDeep sound apart hr).1 rfl
  obtain ⟨d, hd, hdtree, hstructural, hdrefs, hdeep, hsettled⟩ :=
    refreshed_cell? hc htree hunnamed apart
  have hwiring := (Sheet.wiring_eq_of_outline (within_refreshed e' id).outline).symm
  have halters := alters.trans (.of_within (within_refreshed e' id))
  have hlinked : e'.sheet.Linked := ⟨inverse, alters.acyclic_of_collectDeep sound apart⟩
  apply propagate_sound halters sound hid (hlinked.of_wiring hwiring)
  · apply halters.bound sound.bound
    intro d' tree' hd' ht'
    obtain rfl := Option.some.inj (hd.symm.trans hd')
    obtain rfl := Option.some.inj (hdtree.symm.trans ht')
    refine ⟨fun x => ?_, fun x hx => sound.indexed.bounded x (live x hx)⟩
    rw [hdrefs, hrefs, Expr.mem_references]
    exact ⟨fun hx => ⟨hx, live x hx⟩, And.left⟩
  · intro d' hd' _
    obtain rfl := Option.some.inj (hd.symm.trans hd')
    rw [hdtree, hstructural]
    simp
  · refine ⟨fun x => ?_, fun d' hd' _ => ?_⟩
    · rw [Sheet.deepOf_of_cell? hd, hdeep, Sheet.Refers, ← Sheet.referencesOf_eq_of_wiring hwiring]
      exact alters.deep_of_collectDeep sound hid apart
    · obtain rfl := Option.some.inj (hd.symm.trans hd')
      exact hsettled

end Edit

/-- The cell without its transitive references. -/
def Cell.shallow (c : Cell) : Cell :=
  { c with deep := ∅ }

/-- The cell with neither a tree nor transitive references. -/
def Cell.blank (c : Cell) : Cell :=
  { c with deep := ∅, content := .formula none }

theorem Cell.sameFace_of_shallow {c d : Cell} (h : d.shallow = c.shallow) : c.SameFace d := by
  have hv : d.shallow.value = c.shallow.value := by rw [h]
  have he : d.shallow.error = c.shallow.error := by rw [h]
  have hg : d.shallow.grid? = c.shallow.grid? := by rw [h]
  exact ⟨hv.symm, he.symm, hg.symm⟩

namespace Sheet

/-- The sheet without the transitive references of its cells. -/
def shallow (s : Sheet) : Sheet :=
  s.through Cell.shallow

variable {s t : Sheet} {id : CellId} {c : Cell}

theorem outline_eq_of_shallow (h : s.shallow = t.shallow) : s.outline = t.outline := by
  have ho : ∀ u : Sheet, u.outline = u.shallow.outline := fun u =>
    (through_through Cell.shallow Cell.outline u).symm
  rw [ho s, ho t, h]

theorem cell?_shallow (h : s.shallow = t.shallow) (hc : s.cell? id = some c) :
    ∃ d, t.cell? id = some d ∧ d.shallow = c.shallow :=
  cell?_of_through_eq Cell.shallow (fun _ => rfl) h hc

theorem Classified.of_shallow (hs : s.Classified) (h : s.shallow = t.shallow) :
    t.Classified := by
  intro id d hd ht
  obtain ⟨c, hc, hcd⟩ := cell?_shallow h.symm hd
  have htree : c.shallow.tree? = d.shallow.tree? := by rw [hcd]
  have htable : c.shallow.isTable = d.shallow.isTable := by rw [hcd]
  have hstructural : c.shallow.isStructural = d.shallow.isStructural := by rw [hcd]
  change c.tree? = d.tree? at htree
  change c.isStructural = d.isStructural at hstructural
  rw [← htree, ← hstructural]
  exact hs id c hc (htable.trans ht)

theorem sameFace_of_shallow (h : s.shallow = t.shallow) (id : CellId) : s.SameFace t id := by
  unfold SameFace
  cases hc : s.cell? id with
  | some c =>
    obtain ⟨d, hd, hs⟩ := cell?_shallow h hc
    rw [hd]
    exact .some (Cell.sameFace_of_shallow hs)
  | none =>
    have hids := ids_eq_of_wiring (wiring_eq_of_outline (outline_eq_of_shallow h))
    rw [not_mem_ids_iff.mp (hids ▸ not_mem_ids_iff.mpr hc)]
    exact .none

theorem UpToDate.of_shallow (h : s.UpToDate id) (same : s.shallow = t.shallow)
    (deep : t.DeepAt id) : t.UpToDate id := by
  have hwiring := wiring_eq_of_outline (outline_eq_of_shallow same)
  refine ⟨deep, fun d hd ht => ?_⟩
  obtain ⟨c, hc, hs⟩ := cell?_shallow same.symm hd
  have hface := Cell.sameFace_of_shallow hs
  have htree : c.shallow.tree? = d.shallow.tree? := by rw [hs]
  have htable : c.shallow.isTable = d.shallow.isTable := by rw [hs]
  have hdeep : c.deep = d.deep := by
    apply IdSet.ext
    intro x
    have hc' := h.deep x
    have hd' := deep x
    rw [deepOf_of_cell? hc, Refers, referencesOf_eq_of_wiring hwiring] at hc'
    rw [deepOf_of_cell? hd] at hd'
    exact hc'.trans hd'.symm
  apply (h.settled c hc (htable.trans ht)).congr
    ⟨hface.value.symm, hface.error.symm, htree, hdeep⟩
  · exact fun x _ => sameFace_of_shallow same x
  · exact fun _ _ x _ => sameFace_of_shallow same x

/-- A cell that depends on a circular one is exempt from being brought up to date. -/
theorem settled_of_circular (id : CellId) (hd : id ∈ c.deep) (h : s.IsCircular id) :
    s.Settled c := by
  obtain ⟨d, hc, hk⟩ := h
  refine ⟨fun _ => ⟨id, hd, ?_⟩, fun _ hn => absurd ⟨d, hc, hk⟩ (hn id hd)⟩
  cases he : d.error with
  | none => simp [Cell.errorKind?, he] at hk
  | some error => simp [hasError, hc, Cell.hasError, he]

end Sheet

namespace Edit

variable {e e' : Edit} {id : CellId} {c : Cell}

/-- Brings the transitive references of one cell in line with those of its references. -/
def recollect (e : Edit) (id : CellId) : Edit :=
  e.setDeep id (e.sheet.collectDeep id)

theorem setDeep_shallow (e : Edit) (id : CellId) (deep : IdSet) :
    (e.setDeep id deep).sheet.shallow = e.sheet.shallow :=
  Sheet.through_modify (f := fun c => { c with deep := deep }) (fun _ => rfl) e.sheet id

theorem recollect_deepAt (deep : ∀ r ∈ e.sheet.referencesOf id, e.sheet.DeepAt r) :
    (e.recollect id).sheet.DeepAt id := by
  have hwiring := Sheet.wiring_eq_of_outline (within_setDeep e id (e.sheet.collectDeep id)).outline
  cases hc : e.sheet.cell? id with
  | none =>
    apply (Sheet.upToDate_of_not_mem _).deep
    rw [recollect, Sheet.ids_eq_of_wiring hwiring]
    exact Sheet.not_mem_ids_iff.mpr hc
  | some c =>
    intro x
    rw [recollect, Sheet.deepOf_of_cell? (setDeep_cell? hc _), Sheet.Refers,
      Sheet.referencesOf_eq_of_wiring hwiring]
    exact Sheet.mem_collectDeep_iff deep

theorem recollectAll_deepAt {order : List CellId} (linked : e.sheet.Linked)
    (sorted : order.Pairwise fun a b => a ∉ e.sheet.dependentsOf b)
    (closed : ∀ x ∈ order, ∀ y ∈ e.sheet.dependentsOf x, y ∈ order)
    (others : ∀ x, x ∉ order → e.sheet.DeepAt x) :
    (order.foldl recollect e).sheet.shallow = e.sheet.shallow ∧
      ∀ x, (order.foldl recollect e).sheet.DeepAt x := by
  have hrefs : ∀ e' : Edit, e'.sheet.shallow = e.sheet.shallow →
      e'.sheet.referencesOf = e.sheet.referencesOf := fun e' hs =>
    Sheet.referencesOf_eq_of_wiring (Sheet.wiring_eq_of_outline (Sheet.outline_eq_of_shallow hs))
  apply foldl_settles linked.acyclic_dependents recollect
    (fun e' => e'.sheet.shallow = e.sheet.shallow) (fun e' x => e'.sheet.DeepAt x)
    ?_ ?_ ?_ sorted closed rfl others
  · intro e' x hk
    exact (setDeep_shallow e' x _).trans hk
  · intro e' x hk hgood
    apply recollect_deepAt
    intro r hr
    rw [hrefs e' hk, linked.inverse] at hr
    exact hgood r hr
  · intro e' x y _ hne _ hgood
    have hw := within_setDeep e' x (e'.sheet.collectDeep x)
    apply hgood.of_wiring (Sheet.wiring_eq_of_outline hw.outline).symm
    rw [Sheet.deepOf, Sheet.deepOf, hw.others y hne]

/-- Bringing transitive references in line leaves a sound sheet when only the cells below a circular
one are behind. -/
theorem recollectAll_sound (indexed : e.sheet.Indexed) (linked : e.sheet.Linked)
    (bound : e.sheet.Bound) (classified : e.sheet.Classified) (hc : e.sheet.cell? id = some c)
    (circular : c.errorKind? = some .circularReference)
    (others : ∀ x, ¬TransGen e.sheet.Refers x id → e.sheet.UpToDate x) :
    ((e.sheet.below id).foldl recollect e).sheet.Sound := by
  obtain ⟨hshallow, hdeep⟩ := recollectAll_deepAt linked (linked.below_sorted id)
    (fun x hx y hy => linked.below_closed hx hy)
    fun x hx => (others x fun hr => hx (linked.mem_below hr)).deep
  have houtline := Sheet.outline_eq_of_shallow hshallow
  refine ⟨indexed.of_roster (Sheet.roster_eq_of_outline houtline).symm,
    linked.of_wiring (Sheet.wiring_eq_of_outline houtline).symm, bound.of_outline houtline.symm,
    classified.of_shallow hshallow.symm, fun x => ?_⟩
  by_cases hx : TransGen e.sheet.Refers x id
  · refine ⟨hdeep x, fun d hd _ => ?_⟩
    obtain ⟨c', hc', hs⟩ := Sheet.cell?_shallow hshallow.symm hc
    refine Sheet.settled_of_circular id ?_ ⟨c', hc', ?_⟩
    · rw [← Sheet.deepOf_of_cell? hd, hdeep, Sheet.Refers,
        Sheet.referencesOf_eq_of_wiring (Sheet.wiring_eq_of_outline houtline)]
      exact hx
    · have he := (Cell.sameFace_of_shallow hs).error
      rw [Cell.errorKind?, ← he]
      exact circular
  · exact (others x hx).of_shallow hshallow.symm (hdeep x)

def unlink (e : Edit) (id : CellId) : Edit :=
  (e.setReferences id ∅).modify id Cell.blank

/-- Takes a cell that closes a cycle out of the graph. -/
def cutOff (e : Edit) (id : CellId) : Edit :=
  (e.unlink id).setError id (some (.circular ((e.unlink id).sheet.displayName id)))

theorem within_cutOff (e : Edit) (id : CellId) : Within id (e.unlink id) (e.cutOff id) :=
  within_setError ..

theorem breakCycle_eq (e : Edit) (id : CellId) :
    e.breakCycle id = ((e.cutOff id).sheet.below id).foldl recollect (e.cutOff id) :=
  rfl

theorem cutOff_cell? (hc : e.sheet.cell? id = some c) : ∃ d, (e.cutOff id).sheet.cell? id = some d ∧
    d.tree? = none ∧ d.isStructural = true ∧ d.errorKind? = some .circularReference ∧
      d.references.ids = [] ∧ d.deep = ∅ := by
  obtain ⟨referencedBy, hself⟩ := setReferences_cell?_self hc ∅
  exact ⟨_, setError_cell? (modify_cell? (f := Cell.blank) (fun _ => rfl) hself) _,
    rfl, rfl, rfl, rfl, rfl⟩

theorem cutOff_alters (e : Edit) (id : CellId) : e.sheet.Alters (e.cutOff id).sheet id := by
  have hmodify := Sheet.Alters.modify (f := Cell.blank) (fun _ => rfl)
    (e.setReferences id ∅).sheet id
  exact ((Sheet.Alters.setReferences e id ∅).trans hmodify).trans (.of_within (within_cutOff e id))

theorem cutOff_mutual (hc : e.sheet.cell? id = some c) (inverse : e.sheet.Mutual) :
    (e.cutOff id).sheet.Mutual := by
  have hmodify := Sheet.wiring_modify (f := Cell.blank) (fun _ => rfl)
    (e.setReferences id ∅).sheet id
  exact (setReferences_mutual hc inverse (by simp)).of_wiring
    (hmodify.symm.trans (Sheet.wiring_eq_of_outline (within_cutOff e id).outline).symm)

/-- A cell that closes a cycle is taken out of the graph, which leaves a sound sheet. -/
theorem breakCycle_sound (sound : e.sheet.SoundBut id) (alters : e.sheet.Alters e'.sheet id)
    (hc : e'.sheet.cell? id = some c) (inverse : e'.sheet.Mutual) :
    (e'.breakCycle id).sheet.Sound := by
  have hid : id ∈ e.sheet.ids := alters.ids_eq ▸ Sheet.mem_ids_iff.mpr ⟨c, hc⟩
  have halters : e.sheet.Alters (e'.cutOff id).sheet id := alters.trans (cutOff_alters e' id)
  obtain ⟨d, hd, htree, hstructural, hcircular, hrefs, hdeep⟩ := cutOff_cell? hc
  have hleaf : ∀ x, ¬TransGen (e'.cutOff id).sheet.Refers id x :=
    fun x => Sheet.not_reaches_of_references hd hrefs
  have hlinked : (e'.cutOff id).sheet.Linked :=
    ⟨cutOff_mutual hc inverse, halters.acyclic sound.linked.acyclic (hleaf id)⟩
  have hhere : (e'.cutOff id).sheet.UpToDate id := by
    refine ⟨fun x => ?_, fun d' hd' _ => ?_⟩
    · rw [Sheet.deepOf_of_cell? hd, hdeep]
      exact ⟨fun h => absurd h IdSet.not_mem_empty, fun h => absurd h (hleaf x)⟩
    · obtain rfl := Option.some.inj (hd.symm.trans hd')
      exact Sheet.settled_of_structural hstructural
  rw [breakCycle_eq]
  apply recollectAll_sound (halters.indexed sound.indexed) hlinked _ _ hd hcircular
  · intro x hx
    by_cases he : x = id
    · exact he ▸ hhere
    · exact halters.upToDate sound hid he fun hr => hx ((halters.reaches_iff he).mp hr)
  · apply halters.bound_of_treeless sound.bound
    intro d' hd'
    obtain rfl := Option.some.inj (hd.symm.trans hd')
    exact htree
  · apply halters.classified sound.classified
    intro d' hd' _
    obtain rfl := Option.some.inj (hd.symm.trans hd')
    exact ⟨fun _ => hstructural, fun _ => htree⟩

theorem settle_sound {tree : Expr} (sound : e.sheet.SoundBut id)
    (hc : e.sheet.cell? id = some c) (live : ∀ x ∈ tree.cells, x ∈ e.sheet.ids) :
    (e.settle id tree).sheet.Sound := by
  let f : Cell → Cell := fun c => { c with content := .formula (some tree), unresolved := [] }
  have hmodified : (e.modify id f).sheet.cell? id = some (f c) :=
    modify_cell? (f := f) (fun _ => rfl) hc
  obtain ⟨referencedBy, hcell⟩ := planted_cell? hc tree
  have halters := planted_alters e id tree
  have hinverse : (e.planted id tree).sheet.Mutual := by
    apply setReferences_mutual hmodified
    · exact sound.linked.inverse.of_wiring
        (Sheet.wiring_modify (f := f) (fun _ => rfl) e.sheet id).symm
    · intro x hx
      have hids : (e.modify id f).sheet.ids = e.sheet.ids :=
        Sheet.ids_modify (f := f) (fun _ => rfl) e.sheet id
      rw [hids]
      exact live x (Expr.mem_references.mp hx)
  rw [settle_eq]
  split
  next => exact breakCycle_sound sound halters hcell hinverse
  next hapart => exact settleAcyclic_sound sound halters hcell rfl rfl hinverse live hapart

/-- Settling a cell on its formula leaves a sound sheet. -/
theorem applyFormula_sound (sound : e.sheet.SoundBut id) (hc : e.sheet.cell? id = some c)
    (formula : c.isTable = false) : (e.applyFormula id).sheet.Sound := by
  simp only [applyFormula, hc, formula, Bool.false_eq_true, ↓reduceIte]
  cases hcompile : compile e.sheet.resolver c.formula with
  | error cause => exact failDefinition_sound sound hc cause
  | ok tree =>
    apply settle_sound sound hc
    intro x hx
    obtain ⟨name, hname⟩ := resolve_of_mem_cells hcompile hx
    exact sound.indexed.mem_ids hname

/-- Only formula cells are settled. -/
theorem applyFormula_cases (e : Edit) (id : CellId) :
    (∃ c, e.sheet.cell? id = some c ∧ c.isTable = false) ∨
      e.applyFormula id = e ∧ ∀ c, e.sheet.cell? id = some c → c.isTable = true := by
  cases hc : e.sheet.cell? id with
  | none => exact .inr ⟨by simp only [applyFormula, hc], fun d hd => (by cases hd)⟩
  | some c =>
    cases ht : c.isTable with
    | false => exact .inl ⟨c, rfl, ht⟩
    | true =>
      refine .inr ⟨by simp only [applyFormula, hc, ht, ↓reduceIte], fun d hd => ?_⟩
      exact Option.some.inj hd ▸ ht

theorem applyFormula_sound_of_sound (sound : e.sheet.Sound) (id : CellId) :
    (e.applyFormula id).sheet.Sound := by
  rcases applyFormula_cases e id with ⟨c, hc, ht⟩ | ⟨hstay, -⟩
  · exact applyFormula_sound (sound.soundBut id) hc ht
  · rwa [hstay]

/-- What settling one cell keeps holds once the cells that wait for a name are settled. -/
theorem rebind_invariant (Holds : Sheet → Prop)
    (keeps : ∀ e id, Holds e.sheet → Holds (applyFormula e id).sheet) (start : Holds e.sheet)
    (name : String) : Holds (e.rebind name).sheet := by
  unfold rebind
  generalize e.waitingFor name = waiting
  induction waiting generalizing e with
  | nil => exact start
  | cons id rest ih => exact ih (keeps e id start)

theorem rebind_sound (sound : e.sheet.Sound) (name : String) : (e.rebind name).sheet.Sound :=
  rebind_invariant Sheet.Sound (fun _ id hs => applyFormula_sound_of_sound hs id) sound name

end Edit

end LiveSheet
