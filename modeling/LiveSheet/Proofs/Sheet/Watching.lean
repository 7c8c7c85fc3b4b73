import LiveSheet.Proofs.Sheet.Glitchless
import LiveSheet.Proofs.Sheet.Story

namespace LiveSheet

/-- The cell that an operation removes if it succeeds. -/
def Operation.removes : Operation → Option CellId
  | .deleteCell id => some id
  | _ => none

/-- What a subscriber is told in a step. -/
def Step.eventsFor (step : Step) (handle : Handle) : List CellEvent :=
  step.delivered.filterMap fun told => if told.1 = handle then some told.2 else none

theorem Sheet.Accepts.runs {s : Sheet} {op : Operation} {reply : Reply} {e : Edit}
    (h : s.Accepts op reply e) (indexed : s.Indexed) : s.Runs op.removes e := by
  cases h with
  | createCell h => exact createCell_runs h
  | createTable h => exact createTable_runs h
  | deleteCell h => exact deleteCell_runs h
  | setFormula h => exact setFormula_runs h
  | rename h => exact rename_runs indexed h
  | setTableValue h =>
    obtain ⟨c, grid, hc, -, rfl⟩ := setTableValue_eq_ok h
    exact replaceGrid_runs hc grid
  | resizeTable h =>
    obtain ⟨c, grid, hc, -, rfl⟩ := resizeTable_eq_ok h
    exact replaceGrid_runs hc grid

namespace Session

open Sheet

variable {s : Session} {id : CellId} {handle : Handle} {c : Cell} {op : Operation}

/-- What a subscriber is told in the course of some operations. -/
def toldTo (s : Session) (handle : Handle) : List Operation → List CellEvent
  | [] => []
  | op :: rest => (s.perform op).eventsFor handle ++ (s.perform op).session.toldTo handle rest

theorem lastHandle_le_perform (s : Session) (op : Operation) :
    s.subscriptions.lastHandle ≤ (s.perform op).session.subscriptions.lastHandle := by
  rcases s.perform_subscriptions op with ⟨keep, hs⟩ | ⟨x, hs⟩
  · rw [hs]
  · rw [hs]
    exact Nat.le_succ _

/-- A handle that was given out is not given out again. -/
theorem live_of_perform (given : handle ≤ s.subscriptions.lastHandle)
    (live : (id, handle) ∈ (s.perform op).session.subscriptions.live) :
    (id, handle) ∈ s.subscriptions.live := by
  rcases s.perform_subscriptions op with ⟨keep, hs⟩ | ⟨x, hs⟩
  · rw [hs] at live
    exact (List.mem_filter.mp live).1
  · rw [hs] at live
    rcases List.mem_append.mp live with live | hnew
    · exact live
    · have hhandle : handle = s.subscriptions.lastHandle + 1 :=
        congrArg Prod.snd (List.mem_singleton.mp hnew)
      rw [hhandle] at given
      exact absurd given (Nat.not_succ_le_self _)

theorem live_of_run {operations : List Operation} (given : handle ≤ s.subscriptions.lastHandle)
    (live : (id, handle) ∈ (s.run operations).subscriptions.live) :
    (id, handle) ∈ s.subscriptions.live := by
  induction operations generalizing s with
  | nil => exact live
  | cons op rest ih =>
    have hgiven := Nat.le_trans given (s.lastHandle_le_perform op)
    exact live_of_perform given (ih hgiven live)

/-- Every operation runs so, and those who watch the cells are told of its changes. -/
theorem perform_runs (indexed : s.sheet.Indexed) (op : Operation) :
    ∃ e, s.sheet.Runs op.removes e ∧ (s.perform op).session.sheet = e.sheet ∧
      (s.perform op).delivered = s.subscriptions.deliver e.changes := by
  rcases s.perform_accepts op with ⟨hsheet, hsilent, -⟩ | ⟨e, haccepts, hsheet, htold⟩
  · exact ⟨s.sheet.unchanged, .refl _ _, hsheet, hsilent⟩
  · exact ⟨e, haccepts.runs indexed, hsheet, htold⟩

/-- Who still watches a cell watches one that was not removed. -/
theorem removes_ne_of_live (hc : s.sheet.cell? id = some c)
    (live : (id, handle) ∈ (s.perform op).session.subscriptions.live) : op.removes ≠ some id := by
  cases op with
  | deleteCell gone =>
    intro hgone
    obtain rfl : gone = id := Option.some.inj hgone
    simp only [perform_deleteCell_eq, delete, deleteCell, Sheet.cell, hc] at live
    simpa using (List.mem_filter.mp live).2
  | _ =>
    intro h
    cases h

theorem eventsFor_eq {step : Step} {e : Edit} (distinct : s.subscriptions.Distinct)
    (live : (id, handle) ∈ s.subscriptions.live)
    (told : step.delivered = s.subscriptions.deliver e.changes) :
    step.eventsFor handle = e.eventsOf id := by
  rw [Step.eventsFor, told]
  exact distinct.deliver_filterMap live some e.changes

theorem perform_story (sound : s.sheet.Sound) (legible : s.sheet.Legible)
    (distinct : s.subscriptions.Distinct) (watches : (id, handle) ∈ s.subscriptions.live)
    (live : (id, handle) ∈ (s.perform op).session.subscriptions.live)
    (hc : s.sheet.cell? id = some c) : ∃ d, (s.perform op).session.sheet.cell? id = some d ∧
      Story c.profile ((s.perform op).eventsFor handle) d.profile := by
  obtain ⟨e, hruns, hsheet, hdelivered⟩ := perform_runs sound.indexed op
  obtain ⟨d, events, hd, hevents, hstory⟩ :=
    hruns.reports sound legible (removes_ne_of_live hc live) c hc
  refine ⟨d, by rw [hsheet, hd], ?_⟩
  rw [eventsFor_eq distinct watches hdelivered, hevents]
  exact hstory

theorem perform_sound (sound : s.sheet.Sound) (op : Operation) :
    (s.perform op).session.sheet.Sound :=
  run_invariant Sound (fun _ _ hs h => h.sound hs) sound [op]

theorem perform_legible (sound : s.sheet.Sound) (legible : s.sheet.Legible) (op : Operation) :
    (s.perform op).session.sheet.Legible := by
  obtain ⟨e, hruns, hsheet, -⟩ := perform_runs sound.indexed op
  rw [hsheet]
  exact hruns.legible sound legible

/-- After any operations, errors of cells are told apart by kind and message. -/
theorem run_legible (sound : s.sheet.Sound) (legible : s.sheet.Legible)
    (operations : List Operation) : (s.run operations).sheet.Legible := by
  induction operations generalizing s with
  | nil => exact legible
  | cons op rest ih => exact ih (perform_sound sound op) (perform_legible sound legible op)

theorem run_story (sound : s.sheet.Sound) (legible : s.sheet.Legible)
    (distinct : s.subscriptions.Distinct) (watches : (id, handle) ∈ s.subscriptions.live)
    (operations : List Operation)
    (live : (id, handle) ∈ (s.run operations).subscriptions.live)
    (hc : s.sheet.cell? id = some c) : ∃ d, (s.run operations).sheet.cell? id = some d ∧
      Story c.profile (s.toldTo handle operations) d.profile := by
  induction operations generalizing s c with
  | nil => exact ⟨c, hc, .still _⟩
  | cons op rest ih =>
    have hgiven := Nat.le_trans (distinct.bounded _ watches) (s.lastHandle_le_perform op)
    have hnext : (id, handle) ∈ (s.perform op).session.subscriptions.live :=
      live_of_run hgiven live
    obtain ⟨b, hb, hfirst⟩ := perform_story sound legible distinct watches hnext hc
    obtain ⟨d, hd, hrest⟩ := ih (perform_sound sound op) (perform_legible sound legible op)
      (perform_distinct distinct op) hnext live hb
    exact ⟨d, hd, hfirst.append hrest⟩

theorem subscribe_eq (h : (s.perform (.subscribe id)).reply = .subscribed handle) :
    ∃ c, s.sheet.cell? id = some c ∧ (s.perform (.subscribe id)).session.sheet = s.sheet ∧
      (id, handle) ∈ (s.perform (.subscribe id)).session.subscriptions.live := by
  simp only [perform_subscribe_eq, subscribe, Sheet.cell] at h ⊢
  cases hc : s.sheet.cell? id with
  | none =>
    rw [hc] at h
    cases h
  | some c =>
    rw [hc] at h
    obtain rfl := Reply.subscribed.inj h
    exact ⟨c, rfl, rfl, List.mem_append_right _ (List.mem_singleton_self _)⟩

/-- Who subscribes to a cell is told, as long as the subscription lasts, all that becomes of its
name, formula, value and error, and each time of something else than there was. -/
theorem run_tells_all (settings : Settings) (before after : List Operation) (id : CellId)
    (handle : Handle)
    (subscribed : (((new settings).run before).perform (.subscribe id)).reply = .subscribed handle)
    (live : (id, handle) ∈ ((((new settings).run before).perform (.subscribe id)).session.run
      after).subscriptions.live) :
    let s := (((new settings).run before).perform (.subscribe id)).session
    ∃ c d, s.sheet.cell? id = some c ∧ (s.run after).sheet.cell? id = some d ∧
      d.profile = (s.toldTo handle after).foldl CellEvent.overwrite c.profile ∧
      ∀ front event rest, s.toldTo handle after = front ++ event :: rest →
        event.News (front.foldl CellEvent.overwrite c.profile) := by
  intro s
  obtain ⟨c, hc, hsheet, hwatches⟩ := subscribe_eq subscribed
  have hsound : s.sheet.Sound := hsheet ▸ run_sound settings before
  have hlegible : s.sheet.Legible :=
    hsheet ▸ run_legible (Sound.new settings) (Legible.new settings) before
  have hdistinct : s.subscriptions.Distinct :=
    perform_distinct (run_distinct (new_distinct settings) before) (.subscribe id)
  have hcell : s.sheet.cell? id = some c := hsheet.symm ▸ hc
  obtain ⟨d, hd, hstory⟩ := run_story hsound hlegible hdistinct hwatches after live hcell
  refine ⟨c, d, hcell, hd, hstory.foldl_eq.symm, fun front event rest hsplit => ?_⟩
  rw [hsplit] at hstory
  exact hstory.news

set_option maxRecDepth 20000 in
/-- Who watches a cell is told when its formula comes to use a name of no cell. -/
theorem run_tells_all_unknown :
    let s := (((new .default).run [.createCell (some "a") (some "true")]).perform
      (.subscribe ⟨1⟩)).session
    (((new .default).run [.createCell (some "a") (some "true")]).perform
        (.subscribe ⟨1⟩)).reply = .subscribed 1 ∧
      (⟨1⟩, 1) ∈ (s.run [.setFormula ⟨1⟩ "b"]).subscriptions.live ∧
      ∃ c d, s.sheet.cell? ⟨1⟩ = some c ∧
        (s.run [.setFormula ⟨1⟩ "b"]).sheet.cell? ⟨1⟩ = some d ∧
        d.profile =
          (s.toldTo 1 [.setFormula ⟨1⟩ "b"]).foldl CellEvent.overwrite c.profile ∧
        ∀ front event rest, s.toldTo 1 [.setFormula ⟨1⟩ "b"] = front ++ event :: rest →
          event.News (front.foldl CellEvent.overwrite c.profile) := by
  have hsubscribed : (((new .default).run [.createCell (some "a") (some "true")]).perform
      (.subscribe ⟨1⟩)).reply = .subscribed 1 := by cbv
  have hlive : ((((new .default).run [.createCell (some "a") (some "true")]).perform
      (.subscribe ⟨1⟩)).session.run [.setFormula ⟨1⟩ "b"]).subscriptions.live = [(⟨1⟩, 1)] := by
    cbv
  have hmem := hlive.symm ▸ List.mem_singleton_self ((⟨1⟩, 1) : CellId × Handle)
  refine ⟨hsubscribed, hmem, ?_⟩
  exact run_tells_all .default [.createCell (some "a") (some "true")] [.setFormula ⟨1⟩ "b"] ⟨1⟩ 1
    hsubscribed hmem

set_option maxRecDepth 20000 in
example : (((new .default).run [.createCell (some "a") (some "true")]).perform
    (.subscribe ⟨1⟩)).session.toldTo 1 [.setFormula ⟨1⟩ "b"] =
      [.formulaChanged "b", .errorChanged (some (.definition (.unknownCell "b")))] := by
  cbv

end Session

end LiveSheet
