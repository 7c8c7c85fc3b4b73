import LiveSheet.Proofs.Sheet.LateBinding
import LiveSheet.Proofs.Sheet.Telling

namespace LiveSheet

open Relation

namespace Edit

open Sheet

variable {e e' : Edit} {id x : CellId} {c d : Cell}

/-- Those who watch a cell were told of no value so far, or once of the one that the cell shows. -/
def Voiced (e : Edit) (x : CellId) : Prop :=
  e.told x = [] ∨ ∃ d, e.sheet.cell? x = some d ∧ e.sheet.Clean d ∧ e.told x = [d.value]

theorem Voices.voiced {affected : Prop} (h : Voices affected e e' x) (silent : e.told x = []) :
    e'.Voiced x := by
  unfold Voices at h
  rw [silent] at h
  exact h.imp_right And.right

/-- No value was told of a cell in error, nor of one that depends on it. -/
theorem Voiced.silent (h : e.Voiced x) (sound : e.sheet.SoundBut id)
    (error : e.sheet.hasError id = true) (affected : x = id ∨ TransGen e.sheet.Refers x id) :
    e.told x = [] := by
  rcases h with h | ⟨d, hd, hclean, -⟩
  · exact h
  rcases affected with rfl | hreach
  · simp [hasError, hd, Cell.hasError, hclean.error] at error
  · have hne : x ≠ id := fun he => sound.linked.acyclic id (he ▸ hreach)
    exact absurd ⟨id, ((sound.upToDate x hne).deep.mem_deep hd).mpr hreach, error⟩ hclean.clear

theorem Voiced.of_own (h : e.Voiced x) (own : e.sheet.SameOwn e'.sheet x)
    (deep : ∀ y ∈ e.sheet.deepOf x, e.sheet.SameOwn e'.sheet y) (told : e'.told x = e.told x) :
    e'.Voiced x := by
  unfold Voiced
  rw [told]
  refine h.imp_right fun ⟨d, hd, hclean, hvalue⟩ => ?_
  obtain ⟨d', hd', hown⟩ := own.symm.cell? hd
  have hshown : d.value = d'.value := (congrArg Cell.value hown :)
  have herror : d.error = d'.error := (congrArg Cell.error hown :)
  have hdeep : d.deep = d'.deep := (congrArg Cell.deep hown :)
  rw [deepOf_of_cell? hd] at deep
  refine ⟨d', hd', ⟨herror ▸ hclean.error, fun hb => hclean.clear ?_⟩, hshown ▸ hvalue⟩
  exact hb.congr hdeep fun y hy => (deep y (hdeep ▸ hy)).hasError_eq.symm

/-- Settling a cell tells no value a second time, if none was told of what it may change. -/
theorem applyFormula_voiced (sound : e.sheet.SoundBut id) (silent : ∀ x,
    x = id ∨ TransGen e.sheet.Refers x id → e.told x = []) (voiced : ∀ x, e.Voiced x)
    (x : CellId) : (e.applyFormula id).Voiced x := by
  rcases applyFormula_cases e id with ⟨c, hc, formula⟩ | ⟨hstay, -⟩
  · have hvoices := applyFormula_voices sound hc formula x
    by_cases hx : x = id ∨ TransGen e.sheet.Refers x id
    · exact hvoices.voiced (silent x hx)
    · obtain ⟨hne, hapart⟩ := not_or.mp hx
      apply (voiced x).of_own (applyFormula_apart sound hne hapart)
      · intro y hy
        have hreach := ((sound.upToDate x hne).deep y).mp hy
        apply applyFormula_apart sound
        · exact fun he => hapart (he ▸ hreach)
        · exact fun h => hapart (hreach.trans h)
      · exact hvoices.resolve_right fun h => hx h.1
  · rw [hstay]
    exact voiced x

/-- The cells that wait for a name are in error, so that no value was told of what
they may change. -/
theorem rebind_voiced (sound : e.sheet.Sound) (phrased : e.sheet.Phrased)
    (grounded : e.sheet.Grounded) (voiced : ∀ x, e.Voiced x) (name : String) :
    ∀ x, (e.rebind name).Voiced x := by
  refine rebind_waiting (fun e => ∀ x, e.Voiced x) (fun e w c hs hc _ _ he hv => ?_) sound phrased
    grounded voiced name
  have herror : e.sheet.hasError w = true := by
    rw [hasError, hc]
    exact he
  exact applyFormula_voiced (hs.soundBut w)
    (fun x hx => (hv x).silent (hs.soundBut w) herror hx) hv

end Edit

namespace Sheet

variable {s : Sheet} {id x : CellId} {e : Edit}

theorem createCell_voiced {wanted formula : Option String} (hs : s.Sound) (hp : s.Phrased)
    (hg : s.Grounded) (h : s.createCell wanted formula = .ok (id, e)) (x : CellId) :
    e.Voiced x := by
  obtain ⟨name, t, hclaim, -, rfl⟩ := createCell_eq_ok h
  have hsound := hs.claim hclaim
  have hphrased := hp.claim hclaim
  have hfree := claimName_free hclaim
  obtain ⟨-, n, rfl⟩ := claimName_ok hclaim
  generalize htext : formula.getD _ = text
  have hbut := hsound.insertCell hfree text (.formula none) (fun _ => nofun)
  have hcell := hsound.indexed.cell?_insertCell_self name text (.formula none)
  apply Edit.rebind_voiced (Edit.applyFormula_sound hbut hcell rfl)
    (Edit.applyFormula_phrased (insertCell_phrased hsound hphrased hfree text _) hcell rfl)
  · exact Edit.applyFormula_grounded hcell rfl fun x hx =>
      GroundedAt.insertCell (s := { s with lastName := n }) (hg x) hsound.indexed _ _ _ hx
  · exact Edit.applyFormula_voiced hbut (fun _ _ => rfl) fun _ => .inl rfl

theorem createTable_voiced {wanted : Option String} {rows cols : Nat} (hs : s.Sound)
    (hp : s.Phrased) (hg : s.Grounded) (h : s.createTable wanted rows cols = .ok (id, e))
    (x : CellId) : e.Voiced x := by
  obtain ⟨name, t, hclaim, -, rfl⟩ := createTable_eq_ok h
  have hsound := hs.claim hclaim
  have hphrased := hp.claim hclaim
  have hfree := claimName_free hclaim
  obtain ⟨-, n, rfl⟩ := claimName_ok hclaim
  exact Edit.rebind_voiced (insertTable_sound hsound hfree _)
    (insertTable_phrased hsound hphrased hfree _)
    (insertTable_grounded (s := { s with lastName := n }) hsound.indexed hg _)
    (fun _ => .inl rfl) name x

theorem deleteCell_voiced (hs : s.Sound) (h : s.deleteCell id = .ok e) (x : CellId) :
    e.Voiced x := by
  have hsound := deleteCell_sound hs h
  obtain ⟨gone, -, hg, rfl⟩ := deleteCell_eq_ok h
  have hlinked := removeCell_linked hs hg
  have hdistinct := (hs.indexed.removeCell hg).nodup
  exact (Edit.refreshAll_voices hsound (List.nodup_reverse.mpr (postOrder_nodup hdistinct))
    (hlinked.affectedOrder_sorted _) (fun _ hy _ hz => hlinked.affectedOrder_closed hy hz)
    x).voiced (Edit.told_announce_of_none _ _ x rfl)

theorem setFormula_voiced {formula : String} (hs : s.Sound) (h : s.setFormula id formula = .ok e)
    (x : CellId) : e.Voiced x := by
  obtain ⟨c, -, -, rfl⟩ := setFormula_eq_ok h
  have hsound := hs.setFormula id formula
  have hsilent : ∀ x, (s.unchanged.setFormula id formula).told x = [] :=
    fun x => Edit.told_setFormula s.unchanged id x formula
  exact Edit.applyFormula_voiced (hsound.soundBut id) (fun x _ => hsilent x)
    (fun x => .inl (hsilent x)) x

theorem told_renameAll (old new : String) (e : Edit) (ids : List CellId) (x : CellId) :
    (ids.foldl (renameMentions old new) e).told x = e.told x := by
  induction ids generalizing e with
  | nil => rfl
  | cons id rest ih =>
    refine (ih _).trans ?_
    unfold renameMentions
    split
    next => exact Edit.told_announce_of_none _ id x rfl
    next => rfl

theorem rename_voiced {new : String} (hs : s.Sound) (hp : s.Phrased) (hg : s.Grounded)
    (h : s.rename id new = some e) (x : CellId) : e.Voiced x := by
  rcases rename_eq_rebind h with rfl | ⟨c, hc, rfl, hvalid, hfree, rfl⟩
  · exact .inl rfl
  · have hsilent : ∀ x, (s.renamedTo c new).told x = [] := fun x =>
      (told_renameAll c.name new _ _ x).trans (Edit.told_announce_of_none _ _ x rfl)
    exact Edit.rebind_voiced (renamedTo_sound hs hc hfree)
      (renameAll_phrased hs hp hc hvalid hfree) (renamedTo_grounded hc hg new)
      (fun x => .inl (hsilent x)) new x

theorem replaceGrid_voiced {c : Cell} (hs : s.Sound) (hc : s.cell? id = some c) (grid : Grid)
    (x : CellId) : (s.replaceGrid id grid).Voiced x :=
  (Edit.propagate_voices (replaceGrid_sound hs hc grid) x).voiced
    (Edit.told_announce_of_none _ id x rfl)

/-- In the course of an operation, each cell comes to a value at most once. -/
theorem Makes.voiced (h : s.Makes e) (hs : s.Sound) (hp : s.Phrased) (hg : s.Grounded)
    (x : CellId) : e.Voiced x := by
  cases h with
  | createCell h => exact createCell_voiced hs hp hg h x
  | createTable h => exact createTable_voiced hs hp hg h x
  | deleteCell h => exact deleteCell_voiced hs h x
  | setFormula h => exact setFormula_voiced hs h x
  | rename h => exact rename_voiced hs hp hg h x
  | setTableValue h =>
    obtain ⟨c, grid, hc, -, rfl⟩ := setTableValue_eq_ok h
    exact replaceGrid_voiced hs hc grid x
  | resizeTable h =>
    obtain ⟨c, grid, hc, -, rfl⟩ := resizeTable_eq_ok h
    exact replaceGrid_voiced hs hc grid x

end Sheet

namespace Subscriptions

variable {s : Subscriptions} {id : CellId} {handle : Handle}

/-- No two subscribers have one handle, and the next one will have a new one. -/
structure Distinct (s : Subscriptions) : Prop where
  nodup : (s.live.map Prod.snd).Nodup
  bounded : ∀ entry ∈ s.live, entry.2 ≤ s.lastHandle

theorem Distinct.add (h : s.Distinct) (id : CellId) : (s.add id).Distinct := by
  refine ⟨?_, ?_⟩
  · simp only [Subscriptions.add, List.map_append, List.map_cons, List.map_nil]
    apply List.nodup_append.mpr
    refine ⟨h.nodup, List.nodup_singleton _, ?_⟩
    rintro a ha b hb rfl
    obtain ⟨entry, hentry, rfl⟩ := List.mem_map.mp ha
    have hle := h.bounded entry hentry
    rw [List.mem_singleton.mp hb] at hle
    exact absurd hle (Nat.not_succ_le_self _)
  · intro entry hentry
    simp only [Subscriptions.add, List.mem_append, List.mem_singleton] at hentry ⊢
    rcases hentry with hentry | rfl
    · exact Nat.le_succ_of_le (h.bounded entry hentry)
    · exact Nat.le_refl _

theorem Distinct.filter (h : s.Distinct) (keep : CellId × Handle → Bool) :
    Distinct { s with live := s.live.filter keep } :=
  ⟨h.nodup.sublist (List.filter_sublist.map Prod.snd),
    fun entry hentry => h.bounded entry (List.mem_filter.mp hentry).1⟩

theorem mem_handlesOf : handle ∈ s.handlesOf id ↔ (id, handle) ∈ s.live := by
  simp [handlesOf]

/-- A cell is the only one that a subscriber watches. -/
theorem Distinct.eq_of_mem (h : s.Distinct) {x : CellId} (hid : (id, handle) ∈ s.live)
    (hx : (x, handle) ∈ s.live) : x = id :=
  congrArg Prod.fst (List.inj_on_of_nodup_map h.nodup hx hid rfl)

theorem Distinct.handlesOf_nodup (h : s.Distinct) (id : CellId) : (s.handlesOf id).Nodup :=
  h.nodup.sublist (List.filter_sublist.map Prod.snd)

theorem filterMap_single {α : Type} (a : Option α) (handle : Handle) {handles : List Handle}
    (distinct : handles.Nodup) : handles.filterMap (fun h => if h = handle then a else .none) =
      if handle ∈ handles then a.toList else [] := by
  induction handles with
  | nil => rfl
  | cons h rest ih =>
    obtain ⟨hnot, hrest⟩ := List.nodup_cons.mp distinct
    rw [List.filterMap_cons, ih hrest]
    by_cases hh : h = handle
    · subst h
      cases a <;> simp [hnot]
    · simp [hh, Ne.symm hh]

/-- A subscriber is told of what happens to the cell it watches, each time once. -/
theorem Distinct.deliver_filterMap {α : Type} (h : s.Distinct) (live : (id, handle) ∈ s.live)
    (f : CellEvent → Option α) (changes : List Change) :
    (s.deliver changes).filterMap (fun told => if told.1 = handle then f told.2 else .none) =
      changes.filterMap fun change => if change.cell = id then f change.event else .none := by
  induction changes with
  | nil => rfl
  | cons change rest ih =>
    have hwatch : handle ∈ s.handlesOf change.cell ↔ change.cell = id := by
      rw [mem_handlesOf]
      exact ⟨h.eq_of_mem live, fun he => he ▸ live⟩
    have hhere := filterMap_single (f change.event) handle (h.handlesOf_nodup change.cell)
    rw [deliver, List.flatMap_cons, List.filterMap_append, List.filterMap_map,
      List.filterMap_cons, ← ih]
    simp only [Function.comp_def, hhere, hwatch]
    by_cases hcell : change.cell = id
    · cases f change.event <;> simp [hcell, deliver]
    · simp [hcell, deliver]

/-- A subscriber is told of the values of the cell it watches, each once. -/
theorem Distinct.deliver_values (h : s.Distinct) (live : (id, handle) ∈ s.live) (e : Edit) :
    (s.deliver e.changes).filterMap
      (fun told => if told.1 = handle then told.2.value? else .none) = e.told id :=
  h.deliver_filterMap live CellEvent.value? e.changes

end Subscriptions

/-- The values of which a subscriber is told in a step. -/
def Step.valuesFor (step : Step) (handle : Handle) : List Value :=
  step.delivered.filterMap fun told => if told.1 = handle then told.2.value? else none

namespace Session

variable {s : Session}

/-- An operation drops some subscribers, or there is a new one. -/
theorem perform_subscriptions (s : Session) (op : Operation) :
    (∃ keep, (s.perform op).session.subscriptions =
      { s.subscriptions with live := s.subscriptions.live.filter keep }) ∨
      ∃ id, (s.perform op).session.subscriptions = s.subscriptions.add id := by
  have hsame : ∃ keep, s.subscriptions =
      { s.subscriptions with live := s.subscriptions.live.filter keep } :=
    ⟨fun _ => true, by rw [List.filter_true]⟩
  cases op with
  | createCell name formula =>
    simp only [perform_createCell_eq]
    cases s.sheet.createCell name formula <;> exact .inl hsame
  | createTable name rows cols =>
    simp only [perform_createTable_eq]
    cases s.sheet.createTable name rows cols <;> exact .inl hsame
  | deleteCell id =>
    simp only [perform_deleteCell_eq, delete]
    cases s.sheet.deleteCell id with
    | error e => exact .inl hsame
    | ok e => exact .inl ⟨fun entry => entry.1 != id, rfl⟩
  | setFormula id formula =>
    simp only [perform_setFormula_eq]
    cases s.sheet.setFormula id formula <;> exact .inl hsame
  | rename id name =>
    simp only [perform_rename_eq]
    cases s.sheet.rename id name <;> exact .inl hsame
  | setTableValue id row col x =>
    simp only [perform_setTableValue_eq]
    cases s.sheet.setTableValue id row col x <;> exact .inl hsame
  | resizeTable id rows cols =>
    simp only [perform_resizeTable_eq]
    cases s.sheet.resizeTable id rows cols <;> exact .inl hsame
  | subscribe id =>
    simp only [perform_subscribe_eq, subscribe]
    cases s.sheet.cell id with
    | error e => exact .inl hsame
    | ok c => exact .inr ⟨id, rfl⟩
  | unsubscribe id handle =>
    simp only [perform_unsubscribe_eq, unsubscribe]
    split
    next => exact .inl ⟨fun entry => entry != (id, handle), rfl⟩
    next => exact .inl hsame

theorem perform_distinct (h : s.subscriptions.Distinct) (op : Operation) :
    (s.perform op).session.subscriptions.Distinct := by
  rcases s.perform_subscriptions op with ⟨keep, hs⟩ | ⟨id, hs⟩
  · rw [hs]
    exact h.filter keep
  · rw [hs]
    exact h.add id

theorem run_distinct (h : s.subscriptions.Distinct) (operations : List Operation) :
    (s.run operations).subscriptions.Distinct := by
  induction operations generalizing s with
  | nil => exact h
  | cons op rest ih => exact ih (perform_distinct h op)

theorem new_distinct (settings : Settings) : (Session.new settings).subscriptions.Distinct :=
  ⟨.nil, fun _ hentry => (by cases hentry)⟩

/-- After any operations, a further one tells each subscriber of a value at most once, namely of the
one that the cell it watches then has. -/
theorem run_glitchless (settings : Settings) (operations : List Operation) (op : Operation) :
    let s := (Session.new settings).run operations
    ∀ id handle, (id, handle) ∈ s.subscriptions.live →
      (s.perform op).valuesFor handle = [] ∨
        ∃ c, (s.perform op).session.sheet.cell? id = some c ∧
          (s.perform op).valuesFor handle = [c.value] := by
  intro s id handle live
  have hs : s.sheet.Kept settings := run_kept settings operations
  have hdistinct : s.subscriptions.Distinct := run_distinct (new_distinct settings) operations
  rcases s.perform_edit op with ⟨-, hnone⟩ | ⟨e, hmakes, hsheet, hdelivered⟩
  · rw [Step.valuesFor, hnone]
    exact .inl rfl
  · rw [Step.valuesFor, hdelivered, hdistinct.deliver_values live, hsheet]
    rcases hmakes.voiced hs.sound hs.phrased hs.grounded id with h | ⟨d, hd, -, h⟩
    · exact .inl h
    · exact .inr ⟨d, hd, h⟩

end Session

end LiveSheet
