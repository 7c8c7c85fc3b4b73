import LiveSheet.Proofs.Sheet.Circularity
import LiveSheet.Proofs.Sheet.RenameBindings
import LiveSheet.Proofs.Sheet.Watching

namespace LiveSheet

open Relation

/-- The event tells what is read of a cell: its value, or its error. -/
def CellEvent.isReading : CellEvent → Bool
  | .valueChanged _ | .errorChanged _ => true
  | _ => false

/-- The cell waits for a name. -/
def Sheet.Awaits (s : Sheet) (x : CellId) (name : String) : Prop :=
  ∃ c, s.cell? x = some c ∧ name ∈ c.unresolved

/-- The cells from which the changes of an operation spread. -/
def Operation.Seeds (op : Operation) (s : Sheet) (x : CellId) : Prop :=
  match op with
  | .createCell wanted _ | .createTable wanted _ _ =>
    ∃ name t, s.claimName wanted = .ok (name, t) ∧ (x = s.nextId ∨ s.Awaits x name)
  | .deleteCell id | .setFormula id _ | .setTableValue id _ _ _ | .resizeTable id _ _ => x = id
  | .rename _ new => s.Awaits x new
  | .subscribe _ | .unsubscribe _ _ => False

namespace Edit

open Sheet

variable {e : Edit} {x y : CellId} {name : String}

/-- Settling cells leaves alone what leads to none of them. -/
theorem spares_settleAll {ids : List CellId} (sound : e.sheet.Sound)
    (apart : ∀ y ∈ ids, ¬ReflTransGen e.sheet.Refers x y) :
    e.Spares (ids.foldl applyFormula e) x := by
  induction ids generalizing e with
  | nil => exact .refl e x
  | cons y rest ih =>
    have hapart := apart y List.mem_cons_self
    rw [reflTransGen_iff_eq_or_transGen, not_or] at hapart
    have hx : x ≠ y := Ne.symm hapart.1
    refine (applyFormula_spares (sound.soundBut y) hx hapart.2).trans
      (ih (applyFormula_sound_of_sound sound y) fun z hz => ?_)
    have hz := apart z (List.mem_cons_of_mem y hz)
    rw [reflTransGen_iff_eq_or_transGen] at hz ⊢
    rwa [← transGen_iff_of_apart (fun a ha b => applyFormula_refers e ha b) hx hapart.2]

theorem awaits_of_waitingFor (distinct : e.sheet.ids.Nodup) (h : x ∈ e.waitingFor name) :
    e.sheet.Awaits x name := by
  obtain ⟨c, hc, rfl⟩ := List.mem_map.mp h
  obtain ⟨hmem, hwaits⟩ := List.mem_filter.mp hc
  exact ⟨c, cell?_of_mem distinct hmem, by simpa using hwaits⟩

theorem spares_rebind (sound : e.sheet.Sound)
    (apart : ∀ y, e.sheet.Awaits y name → ¬ReflTransGen e.sheet.Refers x y) :
    e.Spares (e.rebind name) x :=
  spares_settleAll sound fun y hy => apart y (awaits_of_waitingFor sound.indexed.nodup hy)

theorem rebind_of_unawaited (distinct : e.sheet.ids.Nodup)
    (unawaited : ∀ x, ¬e.sheet.Awaits x name) : e.rebind name = e := by
  have hnobody : e.waitingFor name = [] :=
    List.eq_nil_iff_forall_not_mem.mpr fun x hx => unawaited x (awaits_of_waitingFor distinct hx)
  rw [rebind, hnobody]
  rfl

end Edit

namespace Sheet

variable {s t : Sheet} {id x : CellId} {c d : Cell} {name new : String} {e e' : Edit}

/-- The edit leaves a cell as it is, but for its name, its texts and its back references, and nobody
is told of another value or error. -/
structure Leaves (s : Sheet) (e : Edit) (x : CellId) : Prop where
  core : s.SameCore e.sheet x
  silent : ∀ event ∈ e.eventsOf x, event.isReading = false

theorem Leaves.spares (h : s.Leaves e x) (h' : e.Spares e' x) : s.Leaves e' x :=
  ⟨h.core.trans h'.own.sameCore, h'.events ▸ h.silent⟩

theorem Leaves.of_spares (h : s.unchanged.Spares e x) : s.Leaves e x :=
  ⟨h.own.sameCore, h.events ▸ fun _ he => (by cases he)⟩

theorem setFormula_leaves {formula : String} (hs : s.Sound) (h : s.setFormula id formula = .ok e)
    (apart : ¬ReflTransGen s.Refers x id) : s.Leaves e x := by
  obtain ⟨c, -, -, rfl⟩ := setFormula_eq_ok h
  rw [reflTransGen_iff_eq_or_transGen, not_or] at apart
  have hx : x ≠ id := Ne.symm apart.1
  refine .of_spares ((Edit.spares_setFormula _ hx formula).trans
    (Edit.applyFormula_spares ((hs.setFormula id formula).soundBut id) hx ?_))
  rw [refers_setFormula]
  exact apart.2

theorem replaceGrid_leaves (hs : s.Sound) (hc : s.cell? id = some c) (grid : Grid)
    (apart : ¬ReflTransGen s.Refers x id) : s.Leaves (s.replaceGrid id grid) x := by
  rw [reflTransGen_iff_eq_or_transGen, not_or] at apart
  have hx : x ≠ id := Ne.symm apart.1
  have hspares : ∀ y, y ≠ id → s.unchanged.Spares ((s.unchanged.modify id fun c =>
      { c with content := .table grid }).announce id (.tableChanged grid.rows grid.cols)) y :=
    fun y hy => (Edit.spares_modify s.unchanged hy
      (f := fun c => { c with content := .table grid }) fun _ => rfl).announce hy _
  exact .of_spares ((hspares x hx).trans (Edit.propagate_spares (fun y hy => (hspares y hy).own)
    (replaceGrid_sound hs hc grid) hx apart.2))

theorem deleteCell_leaves (hs : s.Sound) (h : s.deleteCell id = .ok e)
    (apart : ¬ReflTransGen s.Refers x id) : s.Leaves e x := by
  obtain ⟨gone, rfl, hg, rfl⟩ := deleteCell_eq_ok h
  rw [reflTransGen_iff_eq_or_transGen, not_or] at apart
  have hx : x ≠ gone.id := Ne.symm apart.1
  have hleaves : s.Leaves ((s.removeCell gone).unchanged.announce gone.id .deleteRequested) x := by
    refine ⟨removeCell_sameCore hs hg hx apart.2, fun event he => ?_⟩
    rw [Edit.eventsOf_announce, if_neg hx.symm] at he
    cases he
  refine hleaves.spares (Edit.spares_refreshAll _ fun hm => apart.2 ?_)
  have hlinked := removeCell_linked hs hg
  obtain ⟨r, hr, -, hpath⟩ := hlinked.mem_affectedOrder.mp hm
  have hlast : s.Refers r gone.id := (hs.linked.inverse.mem_referencedBy hg).mp hr
  rcases reflTransGen_iff_eq_or_transGen.mp hpath with rfl | hpath
  · exact .single hlast
  · exact (reaches_of_removeCell hs hg (hlinked.transGen_dependents.mp hpath)).tail hlast

/-- What leads to no cell that awaits a name is left alone once these are settled, also if a cell
was made meanwhile to which it does not lead either. -/
theorem Leaves.rebind (leaves : s.Leaves e x) (sound : e.sheet.Sound) (hx : x ≠ id)
    (fresh : ¬TransGen s.Refers x id)
    (refers : ∀ a, a ≠ id → ∀ b, s.Refers a b ↔ e.sheet.Refers a b)
    (awaits : ∀ y, y ≠ id → e.sheet.Awaits y name → s.Awaits y name)
    (apart : ∀ y, s.Awaits y name → ¬ReflTransGen s.Refers x y) : s.Leaves (e.rebind name) x := by
  refine leaves.spares (Edit.spares_rebind sound fun y hy => ?_)
  rw [reflTransGen_iff_eq_or_transGen, ← transGen_iff_of_apart refers hx fresh,
    ← reflTransGen_iff_eq_or_transGen]
  by_cases hid : y = id
  · subst y
    rw [reflTransGen_iff_eq_or_transGen]
    rintro (he | hr)
    · exact hx he.symm
    · exact fresh hr
  · exact apart y (awaits y hid hy)

section Insertion

variable (hs : s.Sound) (live : x ∈ s.ids)
include hs live

theorem insertCell_leaves (name formula : String) (content : Content) :
    s.Leaves (s.insertCell name formula content).unchanged x := by
  have hx : x ≠ s.nextId := fun he => hs.indexed.nextId_not_mem (he ▸ live)
  have hcell := hs.indexed.cell?_insertCell_other name formula content hx
  exact .of_spares ⟨.of_cell?_eq hcell, rfl⟩

theorem insertCell_apart : x ≠ s.nextId ∧ ¬TransGen s.Refers x s.nextId :=
  ⟨fun he => hs.indexed.nextId_not_mem (he ▸ live),
    fun hr => hs.indexed.nextId_not_mem (hs.linked.mem_ids_of_transGen hr)⟩

end Insertion

theorem Indexed.awaits_of_insertCell {formula : String} {content : Content} {y : CellId}
    (hs : s.Indexed) (hy : y ≠ s.nextId) (h : (s.insertCell new formula content).Awaits y name) :
    s.Awaits y name := by
  obtain ⟨c, hc, hwaits⟩ := h
  exact ⟨c, (hs.cell?_insertCell_other _ _ _ hy).symm.trans hc, hwaits⟩

theorem Leaves.of_claim {wanted : Option String} (h : t.Leaves e x)
    (hc : s.claimName wanted = .ok (name, t)) : s.Leaves e x := by
  obtain ⟨-, n, rfl⟩ := claimName_ok hc
  exact ⟨h.core, h.silent⟩

/-- What leads to no cell that awaits the name of a new one. -/
theorem apart_of_claim {wanted : Option String} (hc : s.claimName wanted = .ok (name, t))
    (live : x ∈ s.ids) (apart : ∀ y, (∃ name t, s.claimName wanted = .ok (name, t) ∧
      (y = s.nextId ∨ s.Awaits y name)) → ¬ReflTransGen s.Refers x y) :
    x ∈ t.ids ∧ ∀ y, t.Awaits y name → ¬ReflTransGen t.Refers x y := by
  have hapart := fun y hy => apart y ⟨name, t, hc, .inr hy⟩
  obtain ⟨-, n, rfl⟩ := claimName_ok hc
  exact ⟨live, hapart⟩

theorem createTable_leaves {wanted : Option String} {rows cols : Nat} (hs : s.Sound)
    (h : s.createTable wanted rows cols = .ok (id, e)) (live : x ∈ s.ids)
    (apart : ∀ y, (Operation.createTable wanted rows cols).Seeds s y → ¬ReflTransGen s.Refers x y) :
    s.Leaves e x := by
  obtain ⟨name, t, hclaim, -, rfl⟩ := createTable_eq_ok h
  have ht := hs.claim hclaim
  obtain ⟨hlive, hapart⟩ := apart_of_claim hclaim live apart
  obtain ⟨hx, hfresh⟩ := insertCell_apart ht hlive
  refine ((insertCell_leaves ht hlive _ _ _).rebind (insertTable_sound ht (claimName_free hclaim) _)
    hx hfresh (fun a _ b => ?_) (fun y hy => ht.indexed.awaits_of_insertCell hy)
      hapart).of_claim hclaim
  rw [Refers, Refers, unchanged, ht.indexed.referencesOf_insertCell]

theorem createCell_leaves {wanted formula : Option String} (hs : s.Sound)
    (h : s.createCell wanted formula = .ok (id, e)) (live : x ∈ s.ids)
    (apart : ∀ y, (Operation.createCell wanted formula).Seeds s y → ¬ReflTransGen s.Refers x y) :
    s.Leaves e x := by
  obtain ⟨name, t, hclaim, -, rfl⟩ := createCell_eq_ok h
  have ht := hs.claim hclaim
  obtain ⟨hlive, hapart⟩ := apart_of_claim hclaim live apart
  obtain ⟨hx, hfresh⟩ := insertCell_apart ht hlive
  let text := formula.getD t.settings.defaultFormula
  let inserted : Edit := (t.insertCell name text (.formula none)).unchanged
  have hbut : inserted.sheet.SoundBut t.nextId :=
    ht.insertCell (claimName_free hclaim) text (.formula none) (fun _ => nofun)
  have hcell := ht.indexed.cell?_insertCell_self name text (.formula none)
  have hrefers : inserted.sheet.Refers = t.Refers :=
    congrArg Leads (ht.indexed.referencesOf_insertCell name text (.formula none))
  have hsettled : t.Leaves (inserted.applyFormula t.nextId) x := by
    refine (insertCell_leaves ht hlive _ _ _).spares (Edit.applyFormula_spares hbut hx ?_)
    rw [hrefers]
    exact hfresh
  refine (hsettled.rebind (Edit.applyFormula_sound hbut hcell rfl) hx hfresh (fun a ha b => ?_)
    (fun y hy hwaits => ?_) hapart).of_claim hclaim
  · rw [← hrefers]
    exact Edit.applyFormula_refers inserted ha b
  · obtain ⟨d, hd, hname⟩ := hwaits
    obtain ⟨c, hc, hstance⟩ := (Edit.applyFormula_others inserted hy).cell? hd
    rw [Cell.unresolved_eq_of_stance hstance] at hname
    exact ht.indexed.awaits_of_insertCell hy ⟨c, hc, hname⟩

/-- The cells keep what they wait for while one of them is renamed. -/
theorem awaits_of_renamedTo {y : CellId} (hc : s.cell? c.id = some c)
    (h : (s.renamedTo c new).sheet.Awaits y name) : s.Awaits y name := by
  obtain ⟨d, hd, hwaits⟩ := h
  rw [cell?_renamedTo hc] at hd
  obtain ⟨b, hb, rfl⟩ := Option.map_eq_some_iff.mp hd
  exact ⟨b, hb, hwaits⟩

theorem renamedTo_sameCore (hc : s.cell? c.id = some c) (new : String) (x : CellId) :
    s.SameCore (s.renamedTo c new).sheet x := by
  rw [SameCore, cell?_renamedTo hc, Option.map_map]
  rfl

theorem renameAll_silent (old new : String) {ids : List CellId}
    (h : ∀ event ∈ e.eventsOf x, event.isReading = false) :
    ∀ event ∈ (ids.foldl (renameMentions old new) e).eventsOf x, event.isReading = false := by
  induction ids generalizing e with
  | nil => exact h
  | cons id rest ih =>
    apply ih
    unfold renameMentions
    split
    next formula _ =>
      intro event he
      rw [Edit.eventsOf_announce] at he
      rcases List.mem_append.mp he with he | he
      · exact h event he
      · split at he
        next => exact List.mem_singleton.mp he ▸ rfl
        next => cases he
    next => exact h

theorem renamedTo_leaves (hc : s.cell? c.id = some c) (new : String) (x : CellId) :
    s.Leaves (s.renamedTo c new) x := by
  refine ⟨renamedTo_sameCore hc new x, renameAll_silent c.name new fun event he => ?_⟩
  rw [Edit.eventsOf_announce] at he
  rcases List.mem_append.mp he with he | he
  · cases he
  · split at he
    next => exact List.mem_singleton.mp he ▸ rfl
    next => cases he

theorem rename_leaves (hs : s.Sound) (h : s.rename id new = some e)
    (apart : ∀ y, s.Awaits y new → ¬ReflTransGen s.Refers x y) : s.Leaves e x := by
  rcases rename_eq_rebind h with rfl | ⟨c, hc, rfl, -, hfree, rfl⟩
  · exact .of_spares (.refl _ x)
  · have hrefers : (s.renamedTo c new).sheet.Refers = s.Refers := by
      funext a b
      rw [Refers, Refers, Leads, Leads, (renamedTo_sameCore hc new a).referencesOf]
    have hsound := renamedTo_sound hs hc hfree
    refine (renamedTo_leaves hc new x).spares (Edit.spares_rebind hsound fun y hy => ?_)
    rw [hrefers]
    exact apart y (awaits_of_renamedTo hc hy)

/-- The changes of an operation spread from its seeds to what leads to them, and no further. -/
theorem Accepts.leaves {op : Operation} {reply : Reply} (h : s.Accepts op reply e) (hs : s.Sound)
    (live : x ∈ s.ids) (apart : ∀ y, op.Seeds s y → ¬ReflTransGen s.Refers x y) : s.Leaves e x := by
  cases h with
  | createCell h => exact createCell_leaves hs h live apart
  | createTable h => exact createTable_leaves hs h live apart
  | deleteCell h => exact deleteCell_leaves hs h (apart _ rfl)
  | setFormula h => exact setFormula_leaves hs h (apart _ rfl)
  | rename h => exact rename_leaves hs h apart
  | setTableValue h =>
    obtain ⟨c, grid, hc, -, rfl⟩ := setTableValue_eq_ok h
    exact replaceGrid_leaves hs hc grid (apart _ rfl)
  | resizeTable h =>
    obtain ⟨c, grid, hc, -, rfl⟩ := resizeTable_eq_ok h
    exact replaceGrid_leaves hs hc grid (apart _ rfl)

/-- Where no cell waits for the new name, renaming a cell changes no more than its
name and texts. -/
theorem rename_of_unawaited (hs : s.Sound) (hc : s.cell? c.id = some c) (other : c.name ≠ new)
    (unawaited : ∀ x, ¬s.Awaits x new) (h : s.rename c.id new = some e) :
    e = s.renamedTo c new := by
  obtain ⟨-, hfree, rfl⟩ := rename_of_name_ne hc other h
  exact Edit.rebind_of_unawaited (renamedTo_sound hs hc hfree).indexed.nodup
    fun x hx => unawaited x (awaits_of_renamedTo hc hx)

theorem rename_ids (h : s.rename id new = some e) : e.sheet.ids = s.ids := by
  rcases rename_eq_rebind h with rfl | ⟨c, -, rfl, -, -, rfl⟩
  · rfl
  · rw [ids_eq_of_roster (Edit.rebind_roster _ new), renamedTo_ids]

/-- A renaming for which no cell waits changes the name of the cell, and texts. -/
theorem rename_cell? (hs : s.Sound) (unawaited : ∀ x, ¬s.Awaits x new)
    (h : s.rename id new = some e) (hd : s.cell? x = some d) :
    ∃ formula, e.sheet.cell? x = some { d with
      name := if x = id then new else d.name, formula := formula } := by
  cases hc : s.cell? id with
  | none => simp [rename, hc] at h
  | some c =>
    obtain rfl := cell?_id hc
    by_cases other : c.name = new
    · obtain rfl : s.unchanged = e := by simpa [rename, hc, other] using h
      refine ⟨d.formula, hd.trans (congrArg some ?_)⟩
      by_cases hx : x = c.id
      · subst x
        obtain rfl := Option.some.inj (hc.symm.trans hd)
        rw [if_pos rfl, ← other]
      · rw [if_neg hx]
    · obtain rfl := rename_of_unawaited hs hc other unawaited h
      obtain rfl := cell?_id hd
      refine ⟨(s.afterRenaming c new d).formula, ?_⟩
      rw [cell?_renamedTo hc, hd]
      rfl

end Sheet

namespace Session

variable {s : Session} {c : Cell} {handle : Handle}

theorem perform_leaves (hs : s.sheet.Sound) (op : Operation) (hc : s.sheet.cell? c.id = some c)
    (apart : ∀ y, op.Seeds s.sheet y → ¬ReflTransGen s.sheet.Refers c.id y) :
    ∃ e, (s.perform op).session.sheet = e.sheet ∧
      (s.perform op).delivered = s.subscriptions.deliver e.changes ∧ s.sheet.Leaves e c.id := by
  rcases s.perform_accepts op with ⟨hsheet, hsilent, -⟩ | ⟨e, haccepts, hsheet, htold⟩
  · exact ⟨s.sheet.unchanged, hsheet, hsilent, .of_spares (.refl _ c.id)⟩
  · exact ⟨e, hsheet, htold, haccepts.leaves hs (Sheet.mem_ids_iff.mpr ⟨c, hc⟩) apart⟩

/-- After any operations, an operation leaves alone what does not lead to a cell from which its
changes spread: the cell that it edits or removes, or one that awaits the name which comes up. In
particular, a new name for which no cell waits changes, besides names and texts, nothing at all. -/
theorem run_local (settings : Settings) (operations : List Operation) :
    let session := (new settings).run operations
    let s := session.sheet
    (∀ op : Operation, ∀ c ∈ s.cells, (∀ y, op.Seeds s y → ¬ReflTransGen s.Refers c.id y) →
      let step := session.perform op
      (∃ d, step.session.sheet.cell? c.id = some d ∧ d.content = c.content ∧ d.value = c.value ∧
        d.error = c.error ∧ d.references = c.references ∧ d.deep = c.deep) ∧
      ∀ handle, (c.id, handle) ∈ session.subscriptions.live →
        ∀ event ∈ step.eventsFor handle, event.isReading = false) ∧
    ∀ id new, (∀ x, ¬s.Awaits x new) →
      let step := session.perform (.rename id new)
      let t := step.session.sheet
      t.ids = s.ids ∧ ∀ d ∈ s.cells, ∃ formula, t.cell? d.id = some { d with
        name := if d.id = id ∧ step.reply = .flag true then new else d.name,
        formula := formula } := by
  intro session s
  have hs : s.Sound := run_sound settings operations
  have hdistinct := run_distinct (new_distinct settings) operations
  refine ⟨fun op c hc apart => ?_, fun id new unawaited => ?_⟩
  · have hcell := Sheet.cell?_of_mem hs.indexed.nodup hc
    obtain ⟨e, hsheet, hdelivered, hleaves⟩ := perform_leaves hs op hcell apart
    refine ⟨?_, fun handle live event he => hleaves.silent event ?_⟩
    · have hcore := hleaves.core
      rw [Sheet.SameCore, hcell] at hcore
      obtain ⟨d, hd, hcore⟩ := Option.map_eq_some_iff.mp hcore
      rw [hsheet]
      exact ⟨d, hd, (congrArg Cell.content hcore :), (congrArg Cell.value hcore :),
        (congrArg Cell.error hcore :), (congrArg Cell.references hcore :),
        (congrArg Cell.deep hcore :)⟩
    · rwa [eventsFor_eq hdistinct live hdelivered] at he
  · cases h : s.rename id new with
    | none =>
      have hstep : session.perform (.rename id new) = session.keep (.flag false) := by
        rw [perform_rename_eq]
        rw [show session.sheet.rename id new = none from h]
      rw [hstep]
      refine ⟨rfl, fun d hd => ⟨d.formula, ?_⟩⟩
      simpa [keep] using Sheet.cell?_of_mem hs.indexed.nodup hd
    | some e =>
      have hstep : session.perform (.rename id new) = session.accept (.flag true) e := by
        rw [perform_rename_eq]
        rw [show session.sheet.rename id new = some e from h]
      rw [hstep]
      refine ⟨Sheet.rename_ids h, fun d hd => ?_⟩
      simpa [accept] using
        Sheet.rename_cell? hs unawaited h (Sheet.cell?_of_mem hs.indexed.nodup hd)

set_option maxRecDepth 20000 in
/-- The first of two cells gets the name of the second one as its formula, or gets another name. -/
theorem run_local_apart :
    let session := (new .default).run
      [.createCell (some "a") (some "true"), .createCell (some "b") (some "true")]
    let s := session.sheet
    (∃ c ∈ s.cells, (∀ y, (Operation.setFormula ⟨1⟩ "b").Seeds s y →
        ¬ReflTransGen s.Refers c.id y) ∧
      let step := session.perform (.setFormula ⟨1⟩ "b")
      (∃ d, step.session.sheet.cell? c.id = some d ∧ d.content = c.content ∧ d.value = c.value ∧
        d.error = c.error ∧ d.references = c.references ∧ d.deep = c.deep) ∧
      ∀ handle, (c.id, handle) ∈ session.subscriptions.live →
        ∀ event ∈ step.eventsFor handle, event.isReading = false) ∧
    (∀ x, ¬s.Awaits x "c") ∧
      let step := session.perform (.rename ⟨1⟩ "c")
      let t := step.session.sheet
      t.ids = s.ids ∧ ∀ d ∈ s.cells, ∃ formula, t.cell? d.id = some { d with
        name := if d.id = ⟨1⟩ ∧ step.reply = .flag true then "c" else d.name,
        formula := formula } := by
  have hstate :
      ((new .default).run
        [.createCell (some "a") (some "true"),
          .createCell (some "b") (some "true")]).sheet.cells.map
          (fun c => (c.id, c.references.ids, c.unresolved)) = [(⟨1⟩, [], []), (⟨2⟩, [], [])] := by
    cbv
  have hcells : ∀ s : Sheet, s.ids.Nodup →
      s.cells.map (fun c => (c.id, c.references.ids, c.unresolved)) =
        [(⟨1⟩, [], []), (⟨2⟩, [], [])] →
      (∃ c ∈ s.cells, ∀ y, (Operation.setFormula ⟨1⟩ "b").Seeds s y →
        ¬ReflTransGen s.Refers c.id y) ∧ ∀ x, ¬s.Awaits x "c" := by
    intro s distinct hmap
    constructor
    · obtain ⟨c, hc, hcell⟩ := List.mem_map.mp (hmap ▸ List.mem_cons_of_mem _ List.mem_cons_self)
      refine ⟨c, hc, ?_⟩
      rintro y rfl hr
      rcases reflTransGen_iff_eq_or_transGen.mp hr with he | hr
      · cases he.trans (congrArg (·.1) hcell)
      · exact Sheet.not_reaches_of_references (Sheet.cell?_of_mem distinct hc)
          (congrArg (·.2.1) hcell) hr
    · rintro x ⟨c, hc, hwaits⟩
      have hmem := List.mem_map_of_mem (f := fun c => (c.id, c.references.ids, c.unresolved))
        (Sheet.mem_of_cell? hc).1
      simp only [hmap, List.mem_cons, Prod.mk.injEq, List.not_mem_nil, or_false] at hmem
      rcases hmem with ⟨-, -, hnone⟩ | ⟨-, -, hnone⟩
      all_goals
        rw [hnone] at hwaits
        cases hwaits
  intro session s
  obtain ⟨⟨c, hc, hapart⟩, hunawaited⟩ := hcells s (run_sound .default _).indexed.nodup hstate
  obtain ⟨hleaves, hrenames⟩ := run_local .default
    [.createCell (some "a") (some "true"), .createCell (some "b") (some "true")]
  exact ⟨⟨c, hc, hapart, hleaves _ c hc hapart⟩, hunawaited, hrenames ⟨1⟩ "c" hunawaited⟩

end Session

end LiveSheet
