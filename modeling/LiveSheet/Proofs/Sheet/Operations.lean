import LiveSheet.Proofs.Sheet.Apply
import LiveSheet.Proofs.Sheet.Inversion

namespace LiveSheet

open Relation

/-- The cell without the text of its formula. -/
def Cell.textless (c : Cell) : Cell :=
  { c with formula := "" }

theorem Edit.setFormula_textless (e : Edit) (id : CellId) (formula : String) :
    (e.setFormula id formula).sheet.through Cell.textless = e.sheet.through Cell.textless := by
  unfold setFormula
  split
  next => rfl
  next =>
    split
    next => rfl
    next =>
      exact Sheet.through_modify (f := fun c => { c with formula := formula }) (fun _ => rfl)
        e.sheet id

theorem Edit.setFormula_others (e : Edit) {id x : CellId} (formula : String) (hx : x ≠ id) :
    (e.setFormula id formula).sheet.cell? x = e.sheet.cell? x := by
  unfold setFormula
  split
  next => rfl
  next =>
    split
    next => rfl
    next =>
      exact Sheet.cell?_modify_ne (f := fun c => { c with formula := formula }) (fun _ => rfl)
        e.sheet hx

section Detach

variable (gone c : Cell)

theorem Cell.detach_content : (Cell.detach gone c).content = c.content := by
  unfold detach
  dsimp only
  split_ifs <;> rfl

theorem Cell.detach_tree? : (Cell.detach gone c).tree? = c.tree? := by
  rw [tree?, detach_content, tree?]

theorem Cell.detach_isTable : (Cell.detach gone c).isTable = c.isTable := by
  rw [isTable, grid?, detach_content, isTable, grid?]

theorem Cell.sameFace_detach : c.SameFace (Cell.detach gone c) := by
  unfold detach
  dsimp only
  split_ifs <;> exact ⟨rfl, rfl, rfl⟩

theorem Cell.detach_core {gone c : Cell} (deep : gone.id ∉ c.deep)
    (apart : c.id ∉ gone.referencedBy) : (Cell.detach gone c).core = c.core := by
  have hd : c.deep.erase gone.id = c.deep := by
    apply IdSet.ext
    intro x
    rw [IdSet.mem_erase]
    exact ⟨And.left, fun h => ⟨h, fun he => deep (he ▸ h)⟩⟩
  unfold detach
  rw [hd]
  dsimp only
  split_ifs <;> first | contradiction | rfl

theorem Cell.detach_formula : (Cell.detach gone c).formula = c.formula := by
  unfold detach
  dsimp only
  split_ifs <;> rfl

theorem Cell.detach_error : (Cell.detach gone c).error = c.error :=
  (sameFace_detach gone c).error.symm

variable {gone c}

/-- A cell that loses a reference comes to wait for the name of the lost cell. -/
theorem Cell.mem_detach_unresolved {name : String} : name ∈ (Cell.detach gone c).unresolved ↔
    name ∈ c.unresolved ∨ c.id ∈ gone.referencedBy ∧ name = gone.name := by
  unfold detach
  dsimp only
  split_ifs <;> simp [*, or_comm]

theorem Cell.detach_eq_of_apart (apart : c.id ∉ gone.referencedBy) :
    (Cell.detach gone c).references = c.references ∧
      (Cell.detach gone c).unresolved = c.unresolved := by
  unfold detach
  dsimp only
  split_ifs <;> first | contradiction | exact ⟨rfl, rfl⟩

end Detach

namespace Sheet

variable {s t : Sheet} {id x : CellId} {c gone : Cell}

theorem Sound.new (settings : Settings) : (Sheet.new settings).Sound := by
  have hnone : ∀ x, x ∉ (Sheet.new settings).ids := by simp [Sheet.new, ids]
  have hcell : ∀ x, (Sheet.new settings).cell? x = none := fun x => not_mem_ids_iff.mp (hnone x)
  have hrefs : ∀ x y, y ∉ (Sheet.new settings).referencesOf x := fun x _ h =>
    hnone x (mem_ids_of_mem_referencesOf h)
  refine ⟨⟨.nil, fun x hx => absurd hx (hnone x), fun name x => ?_⟩,
    ⟨fun x y => ?_, fun x hx => ?_⟩,
    ⟨fun x c tree hc => ?_, fun x c tree hc => ?_⟩, fun x c hc => ?_,
    fun x => upToDate_of_not_mem (hnone x)⟩
  · rw [hcell]
    simp [idOf?, Sheet.new]
  · exact ⟨fun h => absurd h (hrefs x y), fun h => absurd (mem_ids_of_mem_dependentsOf h) (hnone y)⟩
  · obtain ⟨y, hy, -⟩ := TransGen.head'_iff.mp hx
    exact hrefs x y hy
  · rw [hcell] at hc
    cases hc
  · rw [hcell] at hc
    cases hc
  · rw [hcell] at hc
    cases hc

/-- A sheet stays sound if only names, texts and what is not resolved change. -/
theorem Sound.of_core (hs : s.Sound) (core : ∀ x, s.SameCore t x) (indexed : t.Indexed)
    (wiring : s.wiring = t.wiring) (lastId : s.lastId = t.lastId) : t.Sound := by
  have hids := ids_eq_of_wiring wiring
  have hkeep : ∀ x c, t.cell? x = some c → ∃ d, s.cell? x = some d ∧ c.core = d.core :=
    fun x c hc => (core x).cell? hc
  refine ⟨indexed, hs.linked.of_wiring wiring, ⟨fun x c tree hc ht => ?_, fun x c tree hc ht => ?_⟩,
    fun x c hc ht => ?_, fun x => ?_⟩
  · obtain ⟨d, hd, hcore⟩ := hkeep x c hc
    have hrefs : c.core.references = d.core.references := by rw [hcore]
    have htree := (Cell.sameState_of_core hcore).tree
    change c.references = d.references at hrefs
    rw [hrefs, ← hids]
    exact hs.bound.references x d tree hd (htree.trans ht)
  · obtain ⟨d, hd, hcore⟩ := hkeep x c hc
    rw [← lastId]
    exact hs.bound.past x d tree hd ((Cell.sameState_of_core hcore).tree.trans ht)
  · obtain ⟨d, hd, hcore⟩ := hkeep x c hc
    have hsame := Cell.sameState_of_core hcore
    rw [← hsame.tree, ← hsame.isStructural]
    exact hs.classified x d hd ((Cell.isTable_eq_of_core hcore).symm.trans ht)
  · apply (hs.upToDate x).congr (core x)
    · intro y
      rw [Refers, Refers, referencesOf_eq_of_wiring wiring]
    · exact fun y _ => (core y).sameFace
    · exact fun _ _ _ _ y _ => (core y).sameFace

/-- The sheet without the texts of its formulas. -/
def textless (s : Sheet) : Sheet :=
  s.through Cell.textless

theorem sameCore_of_textless (h : s.textless = t.textless) (x : CellId) : s.SameCore t x := by
  have hc : ∀ u : Sheet, (u.cell? x).map Cell.core = (u.textless.cell? x).map Cell.core := by
    intro u
    rw [textless, cell?_through (f := Cell.textless) (fun _ => rfl), Option.map_map]
    rfl
  rw [SameCore, hc s, hc t, h]

theorem roster_eq_of_textless (h : s.textless = t.textless) : s.roster = t.roster := by
  have hr : ∀ u : Sheet, u.roster = u.textless.roster := fun u =>
    (through_through Cell.textless Cell.label u).symm
  rw [hr s, hr t, h]

theorem wiring_eq_of_textless (h : s.textless = t.textless) : s.wiring = t.wiring := by
  have hw : ∀ u : Sheet, u.textless.wiring = u.wiring := wiring_through fun _ => rfl
  rw [← hw s, ← hw t, h]

theorem refers_eq_of_textless (h : t.textless = s.textless) : t.Refers = s.Refers := by
  rw [Refers, Refers, referencesOf_eq_of_wiring (wiring_eq_of_textless h)]

theorem Sound.of_textless (hs : s.Sound) (h : s.textless = t.textless) : t.Sound := by
  have hlast : s.textless.lastId = t.textless.lastId := by rw [h]
  exact hs.of_core (sameCore_of_textless h) (hs.indexed.of_roster (roster_eq_of_textless h))
    (wiring_eq_of_textless h) hlast

theorem SoundBut.sound_of_table (h : s.SoundBut id)
    (table : ∀ c, s.cell? id = some c → c.isTable = true) : s.Sound := by
  refine ⟨h.indexed, h.linked, h.bound, fun x c hc ht => ?_, fun x => ?_⟩
  · by_cases hx : x = id
    · rw [table c (hx ▸ hc)] at ht
      cases ht
    · exact h.classified x c hx hc ht
  · by_cases hx : x = id
    · subst x
      refine ⟨h.deep, fun c hc ht => ?_⟩
      rw [table c hc] at ht
      cases ht
    · exact h.upToDate x hx

theorem Sound.claim {wanted : Option String} {name : String} (hs : s.Sound)
    (h : s.claimName wanted = .ok (name, t)) : t.Sound := by
  obtain ⟨-, n, rfl⟩ := claimName_ok h
  exact hs.of_core (fun _ => .of_cell?_eq rfl) (hs.indexed.claim h) rfl rfl

theorem Indexed.cell?_insertCell_other {x : CellId} (hs : s.Indexed) (name formula : String)
    (content : Content) (hx : x ≠ s.nextId) :
    (s.insertCell name formula content).cell? x = s.cell? x := by
  rw [hs.cell?_insertCell, if_neg hx]

theorem Indexed.cell?_nextId (hs : s.Indexed) : s.cell? s.nextId = none :=
  not_mem_ids_iff.mp hs.nextId_not_mem

theorem Indexed.referencesOf_insertCell (hs : s.Indexed) (name formula : String)
    (content : Content) : (s.insertCell name formula content).referencesOf = s.referencesOf := by
  funext x
  by_cases hx : x = s.nextId
  · subst x
    rw [referencesOf_of_cell? (hs.cell?_insertCell_self ..), referencesOf, hs.cell?_nextId]
    rfl
  · rw [referencesOf, referencesOf, hs.cell?_insertCell_other _ _ _ hx]

theorem Indexed.dependentsOf_insertCell (hs : s.Indexed) (name formula : String)
    (content : Content) : (s.insertCell name formula content).dependentsOf = s.dependentsOf := by
  funext x
  by_cases hx : x = s.nextId
  · subst x
    rw [dependentsOf_of_cell? (hs.cell?_insertCell_self ..), dependentsOf, hs.cell?_nextId]
    rfl
  · rw [dependentsOf, dependentsOf, hs.cell?_insertCell_other _ _ _ hx]

theorem Linked.insertCell (h : s.Linked) (hs : s.Indexed) (name formula : String)
    (content : Content) : (s.insertCell name formula content).Linked := by
  refine ⟨?_, ?_⟩
  · rw [Mutual, hs.referencesOf_insertCell, hs.dependentsOf_insertCell]
    exact h.inverse
  · rw [hs.referencesOf_insertCell]
    exact h.acyclic

/-- Trees do not mention ids that are still to come. -/
theorem Bound.nextId_not_mem {x : CellId} {tree : Expr} (h : s.Bound) (hc : s.cell? x = some c)
    (ht : c.tree? = some tree) : s.nextId ∉ tree.cells := by
  intro hm
  have hle := h.past x c tree hc ht _ hm
  simp [nextId] at hle

/-- Among the cells of the new sheet, those with a tree are old. -/
theorem Indexed.cell?_of_insertCell {x : CellId} {name formula : String} {content : Content}
    {tree : Expr} (hs : s.Indexed) (treeless : ∀ tree, content ≠ .formula (some tree))
    (hc : (s.insertCell name formula content).cell? x = some c) (ht : c.tree? = some tree) :
    s.cell? x = some c := by
  by_cases hx : x = s.nextId
  · subst x
    obtain rfl := Option.some.inj ((hs.cell?_insertCell_self ..).symm.trans hc)
    cases content with
    | table grid => cases ht
    | formula tree? =>
      cases tree? with
      | none => cases ht
      | some tree => exact absurd rfl (treeless tree)
  · rw [← hs.cell?_insertCell_other name formula content hx]
    exact hc

theorem Bound.insertCell {content : Content} (h : s.Bound) (hs : s.Indexed)
    (name formula : String) (treeless : ∀ tree, content ≠ .formula (some tree)) :
    (s.insertCell name formula content).Bound := by
  refine ⟨fun x c tree hc ht y => ?_, fun x c tree hc ht y hy => ?_⟩
  · have hc' := hs.cell?_of_insertCell treeless hc ht
    rw [h.references x c tree hc' ht, ids_insertCell, List.mem_append, List.mem_singleton]
    constructor
    · rintro ⟨hm, hl⟩
      exact ⟨hm, .inl hl⟩
    · rintro ⟨hm, hl | rfl⟩
      · exact ⟨hm, hl⟩
      · exact absurd hm (h.nextId_not_mem hc' ht)
  · exact Nat.le_succ_of_le (h.past x c tree (hs.cell?_of_insertCell treeless hc ht) ht y hy)

/-- A new cell has no links, so that it may be settled after all others are. -/
theorem Sound.insertCell {name : String} (hs : s.Sound) (free : s.idOf? name = none)
    (formula : String) (content : Content)
    (treeless : ∀ tree, content ≠ .formula (some tree)) :
    (s.insertCell name formula content).SoundBut s.nextId := by
  have hothers : ∀ x, x ≠ s.nextId → (s.insertCell name formula content).cell? x = s.cell? x :=
    fun x hx => hs.indexed.cell?_insertCell_other name formula content hx
  refine ⟨hs.indexed.insertCell free formula content, hs.linked.insertCell hs.indexed ..,
    hs.bound.insertCell hs.indexed name formula treeless, ?_, ?_, ?_⟩
  · intro x
    rw [deepOf_of_cell? (hs.indexed.cell?_insertCell_self ..), Refers,
      hs.indexed.referencesOf_insertCell]
    refine ⟨fun h => absurd h IdSet.not_mem_empty, fun h => ?_⟩
    obtain ⟨y, hy, -⟩ := TransGen.head'_iff.mp h
    exact absurd (mem_ids_of_mem_referencesOf hy) hs.indexed.nextId_not_mem
  · intro x c hx hc
    exact hs.classified x c (hothers x hx ▸ hc)
  · intro x hx
    apply (hs.upToDate x).frame (fun y hy => .of_cell?_eq (hothers y hy)) hx
    · exact fun h => hs.indexed.nextId_not_mem (hs.linked.mem_ids_of_transGen h)
    · exact fun c tree hc ht => hs.bound.nextId_not_mem hc ht

theorem createCell_sound {name formula : Option String} {e : Edit} (hs : s.Sound)
    (h : s.createCell name formula = .ok (id, e)) : e.sheet.Sound := by
  obtain ⟨name, t, hc, -, rfl⟩ := createCell_eq_ok h
  have hbut := (hs.claim hc).insertCell (claimName_free hc)
    (formula.getD t.settings.defaultFormula) (.formula none) (fun _ => nofun)
  have hcell := (hs.claim hc).indexed.cell?_insertCell_self name
    (formula.getD t.settings.defaultFormula) (.formula none)
  exact Edit.rebind_sound (Edit.applyFormula_sound hbut hcell rfl) name

theorem insertTable_sound {name : String} (hs : s.Sound) (free : s.idOf? name = none)
    (grid : Grid) : (s.insertCell name "" (.table grid)).Sound := by
  apply (hs.insertCell free "" (.table grid) (fun _ => nofun)).sound_of_table
  intro c hcell
  obtain rfl := Option.some.inj ((hs.indexed.cell?_insertCell_self ..).symm.trans hcell)
  rfl

theorem createTable_sound {name : Option String} {rows cols : Nat} {e : Edit} (hs : s.Sound)
    (h : s.createTable name rows cols = .ok (id, e)) : e.sheet.Sound := by
  obtain ⟨name, t, hc, -, rfl⟩ := createTable_eq_ok h
  exact Edit.rebind_sound (insertTable_sound (hs.claim hc) (claimName_free hc) _) name

theorem mem_ids_removeCell : x ∈ (s.removeCell gone).ids ↔ x ∈ s.ids ∧ x ≠ gone.id := by
  rw [mem_ids_iff, mem_ids_iff, cell?_removeCell]
  by_cases hx : x = gone.id
  · simp [hx]
  · simp [hx]

theorem removeCell_sameFace (hx : x ≠ gone.id) : s.SameFace (s.removeCell gone) x := by
  unfold SameFace
  rw [cell?_removeCell, if_neg hx]
  cases s.cell? x with
  | none => exact .none
  | some c => exact .some (Cell.sameFace_detach gone c)

theorem Classified.removeCell (hs : s.Classified) (gone : Cell) :
    (s.removeCell gone).Classified := by
  intro x d hd ht
  obtain ⟨-, c, hc, rfl⟩ := cell?_of_removeCell hd
  rw [Cell.detach_isTable] at ht
  rw [Cell.detach_tree?, Cell.isStructural, Cell.detach_error]
  exact hs x c hc ht

section Deletion

variable (hs : s.Sound) (hg : s.cell? gone.id = some gone)
include hs hg

theorem detach_references_iff (hc : s.cell? x = some c) {y : CellId} :
    y ∈ (Cell.detach gone c).references ↔ y ∈ c.references ∧ y ≠ gone.id := by
  have hm := hs.linked.inverse x gone.id
  rw [referencesOf_of_cell? hc, dependentsOf_of_cell? hg, ← cell?_id hc] at hm
  unfold Cell.detach
  dsimp only
  by_cases hr : c.id ∈ gone.referencedBy
  · split_ifs <;> simp
  · have hnot : gone.id ∉ c.references := fun h => hr (hm.mp h)
    split_ifs <;> exact ⟨fun h => ⟨h, fun he => hnot (he ▸ h)⟩, And.left⟩

theorem detach_referencedBy_iff (hc : s.cell? x = some c) {y : CellId} :
    y ∈ (Cell.detach gone c).referencedBy ↔ y ∈ c.referencedBy ∧ y ≠ gone.id := by
  have hm := hs.linked.inverse gone.id x
  rw [referencesOf_of_cell? hg, dependentsOf_of_cell? hc, ← cell?_id hc] at hm
  unfold Cell.detach
  dsimp only
  by_cases hr : c.id ∈ gone.references
  · split_ifs <;> simp
  · have hnot : gone.id ∉ c.referencedBy := fun h => hr (hm.mpr h)
    split_ifs <;> exact ⟨fun h => ⟨h, fun he => hnot (he ▸ h)⟩, And.left⟩

theorem mem_referencesOf_removeCell {y : CellId} : y ∈ (s.removeCell gone).referencesOf x ↔
    y ∈ s.referencesOf x ∧ x ≠ gone.id ∧ y ≠ gone.id := by
  by_cases hx : x = gone.id
  · simp [referencesOf, cell?_removeCell, hx]
  · have hcell := cell?_removeCell s gone x
    rw [if_neg hx] at hcell
    cases hc : s.cell? x with
    | none => simp [referencesOf, hcell, hc]
    | some c =>
      rw [hc] at hcell
      rw [referencesOf_of_cell? hcell, referencesOf_of_cell? hc]
      exact (detach_references_iff hs hg hc).trans (by simp [hx, IdSet.mem_iff])

theorem mem_dependentsOf_removeCell {y : CellId} : y ∈ (s.removeCell gone).dependentsOf x ↔
    y ∈ s.dependentsOf x ∧ x ≠ gone.id ∧ y ≠ gone.id := by
  by_cases hx : x = gone.id
  · simp [dependentsOf, cell?_removeCell, hx]
  · have hcell := cell?_removeCell s gone x
    rw [if_neg hx] at hcell
    cases hc : s.cell? x with
    | none => simp [dependentsOf, hcell, hc]
    | some c =>
      rw [hc] at hcell
      rw [dependentsOf_of_cell? hcell, dependentsOf_of_cell? hc]
      exact (detach_referencedBy_iff hs hg hc).trans (by simp [hx, IdSet.mem_iff])

theorem reaches_of_removeCell {y : CellId} (h : TransGen (s.removeCell gone).Refers x y) :
    TransGen s.Refers x y := by
  have hle : (s.removeCell gone).Refers ≤ s.Refers :=
    fun _ _ h => ((mem_referencesOf_removeCell hs hg).mp h).1
  exact TransGen.mono hle x y h

theorem removeCell_linked : (s.removeCell gone).Linked := by
  refine ⟨fun a b => ?_, fun x hx => hs.linked.acyclic x ?_⟩
  · rw [mem_referencesOf_removeCell hs hg, mem_dependentsOf_removeCell hs hg,
      hs.linked.inverse a b]
    tauto
  · exact reaches_of_removeCell hs hg hx

theorem removeCell_bound : (s.removeCell gone).Bound := by
  have hkeep : ∀ x d tree, (s.removeCell gone).cell? x = some d → d.tree? = some tree →
      ∃ c, s.cell? x = some c ∧ c.tree? = some tree ∧ Cell.detach gone c = d := by
    intro x d tree hd ht
    obtain ⟨-, c, hc, rfl⟩ := cell?_of_removeCell hd
    exact ⟨c, hc, Cell.detach_tree? gone c ▸ ht, rfl⟩
  refine ⟨fun x d tree hd ht y => ?_, fun x d tree hd ht => ?_⟩
  · obtain ⟨c, hc, htree, rfl⟩ := hkeep x d tree hd ht
    rw [detach_references_iff hs hg hc, hs.bound.references x c tree hc htree,
      mem_ids_removeCell, and_assoc]
  · obtain ⟨c, hc, htree, -⟩ := hkeep x d tree hd ht
    exact hs.bound.past x c tree hc htree

/-- A cell that does not depend on the one that goes loses nothing. -/
theorem removeCell_sameCore (hx : x ≠ gone.id) (apart : ¬TransGen s.Refers x gone.id) :
    s.SameCore (s.removeCell gone) x := by
  unfold SameCore
  rw [cell?_removeCell, if_neg hx]
  cases hc : s.cell? x with
  | none => rfl
  | some c =>
    have hdeep : gone.id ∉ c.deep := mt ((hs.upToDate x).deep.mem_deep hc).mp apart
    have hrefs : c.id ∉ gone.referencedBy := by
      intro h
      apply apart
      apply TransGen.single
      apply (hs.linked.inverse x gone.id).mpr
      rw [dependentsOf_of_cell? hg, ← cell?_id hc]
      exact h
    simp [Cell.detach_core hdeep hrefs]

theorem removeCell_upToDate (hx : x ≠ gone.id) (apart : ¬TransGen s.Refers x gone.id) :
    (s.removeCell gone).UpToDate x := by
  have hne : ∀ y, TransGen s.Refers x y → y ≠ gone.id := fun y h he => apart (he ▸ h)
  apply (hs.upToDate x).congr (removeCell_sameCore hs hg hx apart)
  · intro y
    constructor
    · exact reaches_of_removeCell hs hg
    · intro h
      induction h with
      | single h =>
        exact .single ((mem_referencesOf_removeCell hs hg).mpr ⟨h, hx, hne _ (.single h)⟩)
      | tail hp h ih =>
        exact ih.tail ((mem_referencesOf_removeCell hs hg).mpr
          ⟨h, hne _ hp, hne _ (hp.tail h)⟩)
  · exact fun y hy => removeCell_sameFace (hne y hy)
  · intro c tree hc ht y hy
    apply removeCell_sameFace
    rintro rfl
    exact hs.bound.unnamed (mem_ids_iff.mpr ⟨gone, hg⟩) apart c tree hc ht hy

/-- What depends on a cell that goes is settled again. -/
theorem mem_affectedOrder_removeCell (h : TransGen s.Refers x gone.id) :
    x ∈ (s.removeCell gone).affectedOrder gone.referencedBy.ids := by
  have hlinked := removeCell_linked hs hg
  have hlast : ∀ y, s.Refers y gone.id →
      y ∈ gone.referencedBy.ids ∧ y ∈ (s.removeCell gone).ids := by
    intro y hy
    refine ⟨?_, mem_ids_removeCell.mpr ⟨mem_ids_of_mem_referencesOf hy, ?_⟩⟩
    · rw [← dependentsOf_of_cell? hg]
      exact (hs.linked.inverse y gone.id).mp hy
    · rintro rfl
      exact hs.linked.acyclic.not_mem_self _ hy
  induction h using TransGen.head_induction_on with
  | single h =>
    obtain ⟨hr, hl⟩ := hlast _ h
    exact hlinked.mem_affectedOrder.mpr ⟨_, hr, hl, .refl⟩
  | @head a b hab hb ih =>
    by_cases he : b = gone.id
    · subst he
      obtain ⟨hr, hl⟩ := hlast a hab
      exact hlinked.mem_affectedOrder.mpr ⟨a, hr, hl, .refl⟩
    · have hne : a ≠ gone.id := by
        rintro rfl
        exact hs.linked.acyclic _ (.head hab hb)
      apply hlinked.affectedOrder_closed ih
      apply (mem_dependentsOf_removeCell hs hg).mpr
      exact ⟨(hs.linked.inverse a b).mp hab, he, hne⟩

end Deletion

theorem deleteCell_sound {e : Edit} (hs : s.Sound) (h : s.deleteCell id = .ok e) :
    e.sheet.Sound := by
  obtain ⟨gone, -, hg, rfl⟩ := deleteCell_eq_ok h
  have hlinked := removeCell_linked hs hg
  have hbound := removeCell_bound hs hg
  let e : Edit := (s.removeCell gone).unchanged.announce gone.id .deleteRequested
  have hothers : ∀ x, x ∉ (s.removeCell gone).affectedOrder gone.referencedBy.ids →
      (s.removeCell gone).UpToDate x := by
    intro x hx
    by_cases hxg : x = gone.id
    · apply upToDate_of_not_mem
      rw [mem_ids_removeCell]
      exact fun h => h.2 hxg
    · exact removeCell_upToDate hs hg hxg fun hr => hx (mem_affectedOrder_removeCell hs hg hr)
  obtain ⟨ho, hc, hu⟩ := Edit.refreshAll_upToDate (e := e) hlinked hbound
    (hs.classified.removeCell gone) (hlinked.affectedOrder_sorted gone.referencedBy.ids)
    (fun x hx y hy => hlinked.affectedOrder_closed hx hy) hothers
  exact ⟨(hs.indexed.removeCell hg).of_roster (roster_eq_of_outline ho).symm,
    hlinked.of_wiring (wiring_eq_of_outline ho).symm, hbound.of_outline ho.symm, hc, hu⟩

/-- The cell that gets a new formula is the same otherwise. -/
theorem cell?_setFormula (hc : s.cell? id = some c) (formula : String) :
    (s.unchanged.setFormula id formula).sheet.cell? id = some { c with formula := formula } := by
  simp only [Edit.setFormula, unchanged, hc]
  split
  next h => rw [hc, ← h]
  next => exact Edit.modify_cell? (f := fun c => { c with formula := formula }) (fun _ => rfl) hc

theorem roster_setFormula (s : Sheet) (id : CellId) (formula : String) :
    (s.unchanged.setFormula id formula).sheet.roster = s.roster :=
  roster_eq_of_textless (Edit.setFormula_textless s.unchanged id formula)

theorem refers_setFormula (s : Sheet) (id : CellId) (formula : String) :
    (s.unchanged.setFormula id formula).sheet.Refers = s.Refers :=
  refers_eq_of_textless (Edit.setFormula_textless s.unchanged id formula)

theorem Sound.setFormula (hs : s.Sound) (id : CellId) (formula : String) :
    (s.unchanged.setFormula id formula).sheet.Sound :=
  hs.of_textless (Edit.setFormula_textless s.unchanged id formula).symm

theorem setFormula_sound {formula : String} {e : Edit} (hs : s.Sound)
    (h : s.setFormula id formula = .ok e) : e.sheet.Sound := by
  obtain ⟨c, -, -, rfl⟩ := setFormula_eq_ok h
  exact Edit.applyFormula_sound_of_sound (hs.setFormula id formula) id

theorem Sound.relabel (hs : s.Sound) (hc : s.cell? id = some c) {new : String}
    (free : s.idOf? new = none) : (s.relabel id c.name new).Sound := by
  refine hs.of_core (fun x => ?_) (hs.indexed.relabel hc free) ?_ rfl
  · by_cases hx : x = id
    · subst x
      rw [SameCore, cell?_relabel_self hc, hc]
      rfl
    · exact .of_cell?_eq (cell?_relabel_ne s hx _ _)
  · exact (wiring_modify (f := fun c => { c with name := new }) (fun _ => rfl) s id).symm

theorem renameMentions_textless (old new : String) (e : Edit) (id : CellId) :
    (renameMentions old new e id).sheet.textless = e.sheet.textless := by
  unfold renameMentions
  split
  next formula _ =>
    exact through_modify (f := fun c => { c with formula := formula }) (fun _ => rfl) e.sheet id
  next => rfl

theorem renameAll_textless (old new : String) (e : Edit) (ids : List CellId) :
    (ids.foldl (renameMentions old new) e).sheet.textless = e.sheet.textless := by
  induction ids generalizing e with
  | nil => rfl
  | cons id rest ih => exact (ih _).trans (renameMentions_textless old new e id)

theorem rename_sound {new : String} {e : Edit} (hs : s.Sound) (h : s.rename id new = some e) :
    e.sheet.Sound := by
  rcases rename_eq_some h with rfl | ⟨c, hc, -, hfree, rfl⟩
  · exact hs
  · let e : Edit := (s.relabel id c.name new).unchanged.announce id (.nameChanged c.name new)
    apply Edit.rebind_sound
    apply (hs.relabel hc hfree).of_textless
    exact (renameAll_textless c.name new e _).symm

theorem replaceGrid_sound (hs : s.Sound) (hc : s.cell? id = some c) (grid : Grid) :
    (s.replaceGrid id grid).sheet.Sound := by
  let f : Cell → Cell := fun c => { c with content := .table grid }
  let e : Edit := (s.unchanged.modify id f).announce id (.tableChanged grid.rows grid.cols)
  have hcell : e.sheet.cell? id = some (f c) := Edit.modify_cell? (f := f) (fun _ => rfl) hc
  have halters : s.Alters e.sheet id := .modify (f := f) (fun _ => rfl) s id
  have hwiring : s.wiring = e.sheet.wiring := (wiring_modify (f := f) (fun _ => rfl) s id).symm
  show (e.propagate id).sheet.Sound
  apply Edit.propagate_sound (e := s.unchanged) halters (hs.soundBut id)
    (mem_ids_iff.mpr ⟨c, hc⟩) (hs.linked.of_wiring hwiring)
  · apply halters.bound_of_treeless hs.bound
    intro d hd
    obtain rfl := Option.some.inj (hcell.symm.trans hd)
    rfl
  · intro d hd ht
    obtain rfl := Option.some.inj (hcell.symm.trans hd)
    cases ht
  · refine ⟨(hs.upToDate id).deep.of_wiring hwiring ?_, fun d hd ht => ?_⟩
    · rw [deepOf_of_cell? hcell, deepOf_of_cell? hc]
    · obtain rfl := Option.some.inj (hcell.symm.trans hd)
      cases ht

end Sheet

end LiveSheet
