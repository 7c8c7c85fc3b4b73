import LiveSheet.Proofs.Sheet.Happening

namespace LiveSheet

/-- The operation ends the subscription. -/
def Operation.Ends (op : Operation) (id : CellId) (handle : Handle) : Prop :=
  op = .deleteCell id ∨ op = .unsubscribe id handle

instance (op : Operation) (id : CellId) (handle : Handle) : Decidable (op.Ends id handle) :=
  inferInstanceAs (Decidable (_ ∨ _))

theorem Operation.ends_deleteCell {id x : CellId} {handle : Handle} :
    (deleteCell id).Ends x handle ↔ x = id := by
  simp [Ends, eq_comm]

theorem Operation.ends_unsubscribe {id x : CellId} {handle other : Handle} :
    (unsubscribe id handle).Ends x other ↔ (x, other) = (id, handle) := by
  simp [Ends, eq_comm]

/-- The handle of a new subscriber, of which the reply tells. -/
def Reply.handles : Reply → List Handle
  | .subscribed handle => [handle]
  | _ => []

namespace Subscriptions

variable {s : Subscriptions} {id : CellId} {handle : Handle}

/-- Subscribers stand in the order in which they were registered. -/
structure Ordered (s : Subscriptions) : Prop where
  ascending : (s.live.map Prod.snd).Pairwise (· < ·)
  bounded : ∀ entry ∈ s.live, entry.2 ≤ s.lastHandle

theorem Ordered.distinct (h : s.Ordered) : s.Distinct :=
  ⟨h.ascending.imp Nat.ne_of_lt, h.bounded⟩

theorem Ordered.filter (h : s.Ordered) (keep : CellId × Handle → Bool) :
    Ordered { s with live := s.live.filter keep } :=
  ⟨h.ascending.sublist (List.filter_sublist.map Prod.snd),
    (h.distinct.filter keep).bounded⟩

theorem Ordered.add (h : s.Ordered) (id : CellId) : (s.add id).Ordered := by
  refine ⟨?_, (h.distinct.add id).bounded⟩
  simp only [Subscriptions.add, List.map_append, List.map_cons, List.map_nil]
  refine List.pairwise_append.mpr ⟨h.ascending, List.pairwise_singleton _ _, ?_⟩
  rintro a ha b hb
  obtain ⟨entry, hentry, rfl⟩ := List.mem_map.mp ha
  rw [List.mem_singleton.mp hb]
  exact Nat.lt_succ_of_le (h.bounded entry hentry)

theorem Ordered.handlesOf (h : s.Ordered) (id : CellId) :
    (s.handlesOf id).Pairwise (· < ·) :=
  h.ascending.sublist (List.filter_sublist.map Prod.snd)

end Subscriptions

namespace Session

open Sheet

variable {s : Session} {id x : CellId} {handle : Handle} {op : Operation}
  {operations before after during rest : List Operation}

/-- Subscribers stand in the order of registration, and each watches a cell that is there. -/
structure Attended (s : Session) : Prop where
  sound : s.sheet.Sound
  ordered : s.subscriptions.Ordered
  present : ∀ entry ∈ s.subscriptions.live, entry.1 ∈ s.sheet.ids

/-- The handles given to new subscribers in the course of some operations. -/
def handles (s : Session) : List Operation → List Handle
  | [] => []
  | op :: rest => (s.perform op).reply.handles ++ (s.perform op).session.handles rest

/-- In the course of the operations the handle is given to one who is to watch the cell, and none of
those that follow ends that. -/
def Watches (s : Session) (operations : List Operation) (id : CellId) (handle : Handle) : Prop :=
  ∃ front rest, operations = front ++ .subscribe id :: rest ∧
    ((s.run front).perform (.subscribe id)).reply = .subscribed handle ∧
    ∀ op ∈ rest, ¬op.Ends id handle

theorem watches_cons : s.Watches (op :: rest) id handle ↔
    (op = .subscribe id ∧ (s.perform op).reply = .subscribed handle ∧
      ∀ op ∈ rest, ¬op.Ends id handle) ∨ (s.perform op).session.Watches rest id handle := by
  constructor
  · rintro ⟨front, later, hsplit, hreply, hlasts⟩
    cases front with
    | nil =>
      obtain ⟨rfl, rfl⟩ := List.cons.inj hsplit
      exact .inl ⟨rfl, hreply, hlasts⟩
    | cons first front =>
      obtain ⟨rfl, rfl⟩ := List.cons.inj hsplit
      exact .inr ⟨front, later, rfl, hreply, hlasts⟩
  · rintro (⟨rfl, hreply, hlasts⟩ | ⟨front, later, rfl, hreply, hlasts⟩)
    · exact ⟨[], rest, rfl, hreply, hlasts⟩
    · exact ⟨op :: front, later, rfl, hreply, hlasts⟩

theorem attempt_quiet (s : Session) (outcome : Except SheetError Edit) :
    (s.attempt outcome).reply.handles = [] ∧
      (s.attempt outcome).session.subscriptions = s.subscriptions := by
  cases outcome <;> exact ⟨rfl, rfl⟩

theorem attemptCreate_quiet (s : Session) (outcome : Except SheetError (CellId × Edit)) :
    (s.attemptCreate outcome).reply.handles = [] ∧
      (s.attemptCreate outcome).session.subscriptions = s.subscriptions := by
  cases outcome <;> exact ⟨rfl, rfl⟩

namespace Attended

theorem new (settings : Settings) : (Session.new settings).Attended :=
  ⟨Sound.new settings, ⟨.nil, nofun⟩, nofun⟩

/-- Either there is a new subscriber, or those subscriptions are left that the operation does not
end. -/
theorem turn (h : s.Attended) (op : Operation) :
    ((s.perform op).reply.handles = [] ∧ (s.perform op).session.subscriptions =
      { s.subscriptions with
        live := s.subscriptions.live.filter fun entry => ¬op.Ends entry.1 entry.2 }) ∨
      ∃ id ∈ s.sheet.ids, op = .subscribe id ∧
        (s.perform op).reply = .subscribed (s.subscriptions.lastHandle + 1) ∧
        (s.perform op).session.subscriptions = s.subscriptions.add id := by
  have hquiet : ((s.perform op).reply.handles = [] ∧
        (s.perform op).session.subscriptions = s.subscriptions) →
      (∀ entry ∈ s.subscriptions.live, ¬op.Ends entry.1 entry.2) →
      (s.perform op).reply.handles = [] ∧ (s.perform op).session.subscriptions =
        { s.subscriptions with
          live := s.subscriptions.live.filter fun entry => ¬op.Ends entry.1 entry.2 } := by
    rintro ⟨hreply, hsame⟩ hlast
    rw [List.filter_eq_self.mpr fun entry hentry => decide_eq_true (hlast entry hentry)]
    exact ⟨hreply, hsame⟩
  cases op with
  | createCell name formula =>
    have hstays := s.attemptCreate_quiet (s.sheet.createCell name formula)
    rw [← perform_createCell_eq] at hstays
    exact .inl (hquiet hstays fun _ _ => by simp [Operation.Ends])
  | createTable name rows cols =>
    have hstays := s.attemptCreate_quiet (s.sheet.createTable name rows cols)
    rw [← perform_createTable_eq] at hstays
    exact .inl (hquiet hstays fun _ _ => by simp [Operation.Ends])
  | setFormula id formula =>
    have hstays := s.attempt_quiet (s.sheet.setFormula id formula)
    rw [← perform_setFormula_eq] at hstays
    exact .inl (hquiet hstays fun _ _ => by simp [Operation.Ends])
  | setTableValue id row col x =>
    have hstays := s.attempt_quiet (s.sheet.setTableValue id row col x)
    rw [← perform_setTableValue_eq] at hstays
    exact .inl (hquiet hstays fun _ _ => by simp [Operation.Ends])
  | resizeTable id rows cols =>
    have hstays := s.attempt_quiet (s.sheet.resizeTable id rows cols)
    rw [← perform_resizeTable_eq] at hstays
    exact .inl (hquiet hstays fun _ _ => by simp [Operation.Ends])
  | rename id name =>
    refine .inl (hquiet ?_ fun _ _ => by simp [Operation.Ends])
    simp only [perform_rename_eq]
    cases s.sheet.rename id name <;> exact ⟨rfl, rfl⟩
  | deleteCell id =>
    cases hdelete : s.sheet.deleteCell id with
    | error e =>
      have hgone : id ∉ s.sheet.ids := by
        intro hid
        obtain ⟨e', he'⟩ := deleteCell_of_mem hid
        rw [hdelete] at he'
        cases he'
      refine .inl (hquiet ?_ fun entry hentry hends => hgone ?_)
      · simp only [perform_deleteCell_eq, delete, hdelete]
        exact ⟨rfl, rfl⟩
      · exact Operation.ends_deleteCell.mp hends ▸ h.present entry hentry
    | ok e =>
      simp only [perform_deleteCell_eq, delete, hdelete]
      refine .inl ⟨rfl, congrArg (Subscriptions.mk _) (List.filter_congr fun entry _ => ?_)⟩
      simp [Operation.ends_deleteCell, bne, beq_eq_decide]
  | subscribe id =>
    cases hc : s.sheet.cell? id with
    | none =>
      refine .inl (hquiet ?_ fun _ _ => by simp [Operation.Ends])
      simp only [perform_subscribe_eq, subscribe, Sheet.cell, hc]
      exact ⟨rfl, rfl⟩
    | some c =>
      simp only [perform_subscribe_eq, subscribe, Sheet.cell, hc]
      exact .inr ⟨id, mem_ids_iff.mpr ⟨c, hc⟩, rfl, rfl, rfl⟩
  | unsubscribe id handle =>
    by_cases hhas : s.subscriptions.has id handle = true
    · simp only [perform_unsubscribe_eq, unsubscribe, hhas, ↓reduceIte]
      refine .inl ⟨rfl, congrArg (Subscriptions.mk _) (List.filter_congr fun entry _ => ?_)⟩
      simp [Operation.ends_unsubscribe, bne, beq_eq_decide]
    · refine .inl (hquiet ?_ fun entry hentry hends => hhas ?_)
      · simp only [perform_unsubscribe_eq, unsubscribe, hhas, Bool.false_eq_true, ↓reduceIte]
        exact ⟨rfl, rfl⟩
      · rw [Subscriptions.has, List.contains_iff_mem, ← Operation.ends_unsubscribe.mp hends]
        exact hentry

theorem mem_live_perform (h : s.Attended) :
    (id, handle) ∈ (s.perform op).session.subscriptions.live ↔
      ((id, handle) ∈ s.subscriptions.live ∧ ¬op.Ends id handle) ∨
        (op = .subscribe id ∧ (s.perform op).reply = .subscribed handle) := by
  rcases h.turn op with ⟨hreply, hs⟩ | ⟨x, -, rfl, hreply, hs⟩
  · have hnew : (s.perform op).reply ≠ .subscribed handle := by
      intro hr
      rw [hr] at hreply
      cases hreply
    rw [hs, List.mem_filter]
    simp [hnew]
  · rw [hs, hreply, Subscriptions.add]
    simp [Operation.Ends, eq_comm]

theorem perform (h : s.Attended) (op : Operation) : (s.perform op).session.Attended := by
  refine ⟨perform_sound h.sound op, ?_, ?_⟩
  · rcases h.turn op with ⟨-, hs⟩ | ⟨x, -, -, -, hs⟩
    · rw [hs]
      exact h.ordered.filter _
    · rw [hs]
      exact h.ordered.add x
  · rintro ⟨id, handle⟩ hlive
    rw [(s.perform_edited op).1]
    have hruns := edited_runs h.sound.indexed op
    rcases h.mem_live_perform.mp hlive with ⟨hlive, hstays⟩ | ⟨rfl, hreply⟩
    · refine hruns.present h.sound.indexed (fun hgone => hstays (.inl ?_)) (h.present _ hlive)
      cases op with
      | deleteCell x => exact congrArg Operation.deleteCell (Option.some.inj hgone)
      | _ => cases hgone
    · obtain ⟨c, hc, -, -⟩ := subscribe_eq hreply
      exact mem_ids_iff.mpr ⟨c, hc⟩

theorem run (h : s.Attended) (operations : List Operation) : (s.run operations).Attended := by
  induction operations generalizing s with
  | nil => exact h
  | cons op rest ih => exact ih (h.perform op)

theorem mem_live_run (h : s.Attended) :
    (id, handle) ∈ (s.run operations).subscriptions.live ↔
      ((id, handle) ∈ s.subscriptions.live ∧ ∀ op ∈ operations, ¬op.Ends id handle) ∨
        s.Watches operations id handle := by
  induction operations generalizing s with
  | nil => simp [Session.run, Watches]
  | cons op rest ih =>
    rw [watches_cons, List.forall_mem_cons]
    refine (ih (h.perform op)).trans ?_
    rw [h.mem_live_perform]
    tauto

/-- Handles are given in ascending order, each above those given before. -/
theorem handles_ascending (h : s.Attended) (operations : List Operation) :
    (s.handles operations).Pairwise (· < ·) ∧
      ∀ handle ∈ s.handles operations, s.subscriptions.lastHandle < handle := by
  induction operations generalizing s with
  | nil => exact ⟨.nil, nofun⟩
  | cons op rest ih =>
    obtain ⟨hrest, habove⟩ := ih (h.perform op)
    rw [handles]
    rcases h.turn op with ⟨hreply, hs⟩ | ⟨x, -, -, hreply, hs⟩
    · rw [hs] at habove
      rw [hreply]
      exact ⟨hrest, habove⟩
    · rw [hs] at habove
      rw [hreply]
      refine ⟨List.pairwise_cons.mpr ⟨habove, hrest⟩, List.forall_mem_cons.mpr ⟨?_, ?_⟩⟩
      · exact Nat.lt_succ_self _
      · exact fun handle hhandle => Nat.lt_of_succ_lt (habove handle hhandle)

theorem eventsFor_eq (h : s.Attended) (watches : (id, handle) ∈ s.subscriptions.live)
    (op : Operation) : (s.perform op).eventsFor handle = (s.sheet.edited op).eventsOf id :=
  Session.eventsFor_eq h.ordered.distinct watches (s.perform_edited op).2.1

end Attended

/-- Whose handle is not that of a subscription is told nothing. -/
theorem eventsFor_of_idle (idle : ∀ x, (x, handle) ∉ s.subscriptions.live) (op : Operation) :
    (s.perform op).eventsFor handle = [] := by
  rw [Step.eventsFor, (s.perform_edited op).2.1]
  refine List.filterMap_eq_nil_iff.mpr fun told htold => if_neg ?_
  obtain ⟨change, -, htold⟩ := List.mem_flatMap.mp htold
  obtain ⟨other, hother, rfl⟩ := List.mem_map.mp htold
  rintro rfl
  exact idle change.cell (Subscriptions.mem_handlesOf.mp hother)

/-- Once a subscription has ended, nothing more is told under its handle. -/
theorem toldTo_of_idle (given : handle ≤ s.subscriptions.lastHandle)
    (idle : ∀ x, (x, handle) ∉ s.subscriptions.live) (operations : List Operation) :
    s.toldTo handle operations = [] := by
  induction operations generalizing s with
  | nil => rfl
  | cons op rest ih =>
    rw [toldTo, eventsFor_of_idle idle op, List.nil_append]
    exact ih (given.trans (s.lastHandle_le_perform op)) fun x hx =>
      idle x (live_of_perform given hx)

theorem toldTo_append (s : Session) (handle : Handle) (during rest : List Operation) :
    s.toldTo handle (during ++ rest) =
      s.toldTo handle during ++ (s.run during).toldTo handle rest := by
  induction during generalizing s with
  | nil => rfl
  | cons op during ih =>
    rw [List.cons_append, toldTo, toldTo, ih, List.append_assoc]
    rfl

theorem lastHandle_le_run (s : Session) (operations : List Operation) :
    s.subscriptions.lastHandle ≤ (s.run operations).subscriptions.lastHandle := by
  induction operations generalizing s with
  | nil => exact Nat.le_refl _
  | cons op rest ih => exact (s.lastHandle_le_perform op).trans (ih _)

namespace Attended

/-- Nothing is told under a handle before it is given. -/
theorem toldTo_before (h : s.Attended)
    (later : (s.run operations).subscriptions.lastHandle < handle) :
    s.toldTo handle operations = [] := by
  induction operations generalizing s with
  | nil => rfl
  | cons op rest ih =>
    have hidle : ∀ x, (x, handle) ∉ s.subscriptions.live := fun x hx =>
      absurd ((h.ordered.bounded _ hx).trans (lastHandle_le_run s (op :: rest)))
        (Nat.not_le.mpr later)
    rw [toldTo, eventsFor_of_idle hidle op, ih (h.perform op) later, List.append_nil]

theorem toldTo_eq (h : s.Attended) (watches : (id, handle) ∈ s.subscriptions.live)
    (lasts : ∀ op ∈ during, ¬op.Ends id handle) :
    s.toldTo handle during = s.sheet.eventsOf id during := by
  induction during generalizing s with
  | nil => rfl
  | cons op rest ih =>
    obtain ⟨hstays, hlasts⟩ := List.forall_mem_cons.mp lasts
    have hnext := h.mem_live_perform.mpr (.inl ⟨watches, hstays⟩)
    rw [toldTo, Sheet.eventsOf, h.eventsFor_eq watches op, ih (h.perform op) hnext hlasts,
      (s.perform_edited op).1]

/-- A subscriber is told what the operation does to the cell that ends the subscription, and nothing
after it. -/
theorem toldTo_ended (h : s.Attended) (watches : (id, handle) ∈ s.subscriptions.live)
    (ends : op.Ends id handle) (rest : List Operation) :
    s.toldTo handle (op :: rest) = s.sheet.eventsOf id [op] := by
  have hgiven := (h.ordered.bounded _ watches).trans (s.lastHandle_le_perform op)
  have hidle : ∀ x, (x, handle) ∉ (s.perform op).session.subscriptions.live := by
    intro x hx
    obtain rfl := h.ordered.distinct.eq_of_mem watches
      (live_of_perform (h.ordered.bounded _ watches) hx)
    rcases h.mem_live_perform.mp hx with ⟨-, hstays⟩ | ⟨rfl, -⟩
    · exact hstays ends
    · rcases ends with he | he <;> cases he
  rw [toldTo, h.eventsFor_eq watches op, toldTo_of_idle hgiven hidle rest]
  rfl

/-- In a whole run, a subscriber is told what happens to the cell from the subscription on. -/
theorem toldTo_subscribed (h : s.Attended)
    (subscribed : ((s.run before).perform (.subscribe id)).reply = .subscribed handle)
    (after : List Operation) : s.toldTo handle (before ++ .subscribe id :: after) =
      ((s.run before).perform (.subscribe id)).session.toldTo handle after := by
  have hrun := h.run before
  have hlater : (s.run before).subscriptions.lastHandle < handle := by
    rcases hrun.turn (.subscribe id) with ⟨hreply, -⟩ | ⟨x, -, -, hreply, -⟩
    · rw [subscribed] at hreply
      cases hreply
    · rw [subscribed] at hreply
      exact Reply.subscribed.inj hreply ▸ Nat.lt_succ_self _
  have hidle : ∀ x, (x, handle) ∉ (s.run before).subscriptions.live := fun x hx =>
    absurd (hrun.ordered.bounded _ hx) (Nat.not_le.mpr hlater)
  rw [toldTo_append, h.toldTo_before hlater, toldTo, eventsFor_of_idle hidle]
  rfl

theorem perform_unsubscribe (h : s.Attended) (id : CellId) (handle : Handle) :
    let step := s.perform (.unsubscribe id handle)
    step.reply = .flag (decide ((id, handle) ∈ s.subscriptions.live)) ∧
      step.session.subscriptions.live = s.subscriptions.live.filter (· ≠ (id, handle)) ∧
      step.session.sheet = s.sheet ∧ step.delivered = [] := by
  obtain ⟨hsheet, hdelivered, -⟩ := s.perform_edited (.unsubscribe id handle)
  refine ⟨?_, ?_, hsheet, hdelivered⟩
  · simp only [perform_unsubscribe_eq, unsubscribe, Subscriptions.has, List.contains_iff_mem]
    split
    next hlive => exact congrArg Reply.flag (decide_eq_true hlive).symm
    next hlive => exact congrArg Reply.flag (decide_eq_false hlive).symm
  · rcases h.turn (.unsubscribe id handle) with ⟨-, hs⟩ | ⟨x, -, hop, -⟩
    · simp only [hs, Operation.ends_unsubscribe]
    · cases hop

theorem perform_deleteCell (h : s.Attended) (hid : id ∈ s.sheet.ids) :
    let step := s.perform (.deleteCell id)
    step.reply = .done ∧
      (∃ rest, (s.sheet.edited (.deleteCell id)).changes = ⟨id, .deleteRequested⟩ :: rest ∧
        ∀ change ∈ rest, change.cell ≠ id) ∧
      (∀ handle, (id, handle) ∈ s.subscriptions.live → step.eventsFor handle = [.deleteRequested]) ∧
      step.session.subscriptions.live = s.subscriptions.live.filter (·.1 ≠ id) ∧
      ∀ later, step.session.sheet.eventsOf id later = [] := by
  intro step
  obtain ⟨e, he⟩ := deleteCell_of_mem hid
  have hedited : s.sheet.edited (.deleteCell id) = e := by rw [edited, he]; rfl
  obtain ⟨rest, hrest, hother⟩ := deleteCell_changes he
  refine ⟨?_, ⟨rest, hedited ▸ hrest, hother⟩, fun handle hlive => ?_, ?_, fun later => ?_⟩
  · change (s.perform (.deleteCell id)).reply = .done
    rw [perform_deleteCell_eq, delete, he]
  · have hsilent : (⟨e.sheet, rest⟩ : Edit).eventsOf id = [] := Edit.eventsOf_eq_nil_iff.mpr hother
    rw [h.eventsFor_eq hlive, hedited, Edit.eventsOf, hrest, List.filterMap_cons, if_pos rfl]
    exact congrArg (CellEvent.deleteRequested :: ·) hsilent
  · rcases h.turn (.deleteCell id) with ⟨-, hs⟩ | ⟨x, -, hop, -⟩
    · rw [show step.session.subscriptions = _ from hs]
      simp only [Operation.ends_deleteCell]
    · cases hop
  · have hsheet : step.session.sheet = e.sheet := (s.perform_edited _).1.trans (by rw [hedited])
    obtain ⟨given, hnumbers⟩ := s.sheet.edited_numbers (.deleteCell id)
    rw [hedited] at hnumbers
    have hpast : id.number ≤ e.sheet.lastId :=
      (h.sound.indexed.bounded id hid).trans (hnumbers.lastId ▸ Nat.le_add_right _ _)
    have hsound : e.sheet.Sound := hedited ▸ edited_sound h.sound (.deleteCell id)
    rw [hsheet]
    exact eventsOf_of_gone hsound hpast (deleteCell_gone he) later

end Attended

/-- Handles are never given twice. Who subscribes to a cell is told, until an operation ends that,
everything that happens to it and nothing else, each event once and in order; those who watch one
cell in the order in which they came. A subscription is ended by its cell and its handle, and
nothing else is ended so; or by the deletion of its cell, of which the subscriber is told last of
all. -/
theorem run_subscriptions (settings : Settings) (before : List Operation) :
    let start := new settings
    let s := start.run before
    let live := s.subscriptions.live
    (start.handles before).Pairwise (· < ·) ∧
      (∀ id handle, (id, handle) ∈ live ↔ start.Watches before id handle) ∧
      (∀ op, (s.perform op).delivered = (s.sheet.edited op).changes.flatMap fun change =>
        (s.subscriptions.handlesOf change.cell).map fun handle => (handle, change.event)) ∧
      (∀ id, (s.subscriptions.handlesOf id).Pairwise (· < ·) ∧
        ∀ handle, handle ∈ s.subscriptions.handlesOf id ↔ (id, handle) ∈ live) ∧
      (∀ id handle, (s.perform (.subscribe id)).reply = .subscribed handle →
        let t := (s.perform (.subscribe id)).session
        ∀ during, (∀ op ∈ during, ¬op.Ends id handle) →
          start.toldTo handle (before ++ .subscribe id :: during) = t.sheet.eventsOf id during ∧
            ∀ op rest, op.Ends id handle →
              start.toldTo handle (before ++ .subscribe id :: (during ++ op :: rest)) =
                t.sheet.eventsOf id (during ++ [op])) ∧
      (∀ id handle, let step := s.perform (.unsubscribe id handle)
        step.reply = .flag (decide ((id, handle) ∈ live)) ∧
          step.session.subscriptions.live = live.filter (· ≠ (id, handle)) ∧
          step.session.sheet = s.sheet ∧ step.delivered = []) ∧
      ∀ id ∈ s.sheet.ids, let step := s.perform (.deleteCell id)
        step.reply = .done ∧
          (∃ rest, (s.sheet.edited (.deleteCell id)).changes = ⟨id, .deleteRequested⟩ :: rest ∧
            ∀ change ∈ rest, change.cell ≠ id) ∧
          (∀ handle, (id, handle) ∈ live → step.eventsFor handle = [.deleteRequested]) ∧
          step.session.subscriptions.live = live.filter (·.1 ≠ id) ∧
          ∀ later, step.session.sheet.eventsOf id later = [] := by
  intro start s live
  have hstart : start.Attended := .new settings
  have hs : s.Attended := hstart.run before
  refine ⟨(hstart.handles_ascending before).1, fun id handle => ?_,
    fun op => (s.perform_edited op).2.1,
    fun id => ⟨hs.ordered.handlesOf id, fun handle => Subscriptions.mem_handlesOf⟩,
    ?_, hs.perform_unsubscribe, fun id hid => hs.perform_deleteCell hid⟩
  · refine hstart.mem_live_run.trans (or_iff_right fun hlive => ?_)
    cases hlive.1
  · intro id handle hreply t during hlasts
    have ht : t.Attended := hs.perform (.subscribe id)
    have hlive : (id, handle) ∈ t.subscriptions.live :=
      hs.mem_live_perform.mpr (.inr ⟨rfl, hreply⟩)
    refine ⟨?_, fun op rest hends => ?_⟩
    · exact (hstart.toldTo_subscribed hreply during).trans (ht.toldTo_eq hlive hlasts)
    · have hstill : (id, handle) ∈ (t.run during).subscriptions.live :=
        ht.mem_live_run.mpr (.inl ⟨hlive, hlasts⟩)
      rw [hstart.toldTo_subscribed hreply, toldTo_append, eventsOf_append,
        (ht.run during).toldTo_ended hstill hends]
      exact congrArg (· ++ _) (ht.toldTo_eq hlive hlasts)

set_option maxRecDepth 20000 in
example : (((new .default).run [.createTable (some "a") 1 1, .subscribe ⟨1⟩, .subscribe ⟨1⟩,
    .subscribe ⟨1⟩, .unsubscribe ⟨1⟩ 2, .unsubscribe ⟨2⟩ 3]).perform (.deleteCell ⟨1⟩)).delivered =
      [(1, .deleteRequested), (3, .deleteRequested)] := by
  cbv

end Session

end LiveSheet
