import LiveSheet.Proofs.Sheet.Watching

namespace LiveSheet

/-- An operation fails with an error, or with the flag that nothing was done. -/
def Reply.isFailure : Reply → Bool
  | .failed _ => true
  | .flag b => !b
  | _ => false

/-- The name that an operation wants to give to a new cell. -/
def Operation.wants? : Operation → Option String
  | .createCell name _ | .createTable name _ _ => name
  | _ => none

/-- The cell without which an operation is an error. -/
def Operation.about? : Operation → Option CellId
  | .deleteCell id | .setFormula id _ | .setTableValue id _ _ _ | .resizeTable id _ _
  | .subscribe id => some id
  | _ => none

/-- The cell that must be a table for an operation. -/
def Operation.grid? : Operation → Option CellId
  | .setTableValue id _ _ _ | .resizeTable id _ _ => some id
  | _ => none

namespace Session

/-- The causes for which an operation fails, and the reply. -/
inductive Refuses (s : Session) : Operation → Reply → Prop
  | invalid {op : Operation} {name : String} (wants : op.wants? = some name)
    (invalid : isValidName name = false) : s.Refuses op (.failed (.invalidName name))
  | taken {op : Operation} {c : Cell} (hc : c ∈ s.sheet.cells) (wants : op.wants? = some c.name)
    (valid : isValidName c.name = true) : s.Refuses op (.failed (.nameInUse c.name))
  | unknown {op : Operation} {id : CellId} (about : op.about? = some id) (gone : id ∉ s.sheet.ids) :
    s.Refuses op (.failed (.unknownId id))
  | noFormula {c : Cell} (hc : c ∈ s.sheet.cells) (table : c.isTable = true) (formula : String) :
    s.Refuses (.setFormula c.id formula) (.failed (.notAFormula c.name))
  | noTable {op : Operation} {c : Cell} (hc : c ∈ s.sheet.cells) (about : op.grid? = some c.id)
    (formula : c.isTable = false) : s.Refuses op (.failed (.notATable c.name))
  | outside {c : Cell} {grid : Grid} {row col : Nat} (hc : c ∈ s.sheet.cells)
    (hg : c.grid? = some grid) (out : ¬(row < grid.rows ∧ col < grid.cols)) (x : Float) :
    s.Refuses (.setTableValue c.id row col x)
      (.failed (.data (.range row col grid.rows grid.cols)))
  | nothingToRename {id : CellId} (gone : id ∉ s.sheet.ids) (name : String) :
    s.Refuses (.rename id name) (.flag false)
  | noName {c : Cell} {name : String} (hc : c ∈ s.sheet.cells) (other : c.name ≠ name)
    (unusable : isValidName name = false ∨ ∃ d ∈ s.sheet.cells, d.name = name) :
    s.Refuses (.rename c.id name) (.flag false)
  | noWatcher {id : CellId} {handle : Handle} (away : (id, handle) ∉ s.subscriptions.live) :
    s.Refuses (.unsubscribe id handle) (.flag false)

end Session

namespace Sheet

variable {s : Sheet} {id : CellId} {error : SheetError} {name : String}

/-- A name is taken exactly if a cell has it. -/
theorem Indexed.idOf?_isSome (h : s.Indexed) :
    (s.idOf? name).isSome = true ↔ ∃ c ∈ s.cells, c.name = name := by
  rw [Option.isSome_iff_exists]
  constructor
  · rintro ⟨id, hid⟩
    obtain ⟨c, hc, hn⟩ := (h.names name id).mp hid
    exact ⟨c, (mem_of_cell? hc).1, hn⟩
  · rintro ⟨c, hc, hn⟩
    exact ⟨c.id, (h.names name c.id).mpr ⟨c, cell?_of_mem h.nodup hc, hn⟩⟩

theorem claimName_eq_error {wanted : Option String} (h : s.claimName wanted = .error error) :
    ∃ name, wanted = some name ∧ (isValidName name = false ∧ error = .invalidName name ∨
      isValidName name = true ∧ (s.idOf? name).isSome = true ∧ error = .nameInUse name) := by
  unfold claimName at h
  cases wanted with
  | none => cases h
  | some name =>
    refine ⟨name, rfl, ?_⟩
    dsimp only at h
    split_ifs at h with hv hu
    · cases h
      exact .inl ⟨by simpa using hv, rfl⟩
    · cases h
      exact .inr ⟨by simpa using hv, hu, rfl⟩

theorem mem_of_cell_eq_ok {c : Cell} (h : s.cell id = .ok c) : c ∈ s.cells ∧ c.id = id := by
  unfold cell at h
  split at h
  next hc =>
    cases h
    exact mem_of_cell? hc
  next => cases h

theorem cell_eq_error (h : s.cell id = .error error) : id ∉ s.ids ∧ error = .unknownId id := by
  unfold cell at h
  split at h
  next => cases h
  next hc =>
    cases h
    exact ⟨not_mem_ids_iff.mpr hc, rfl⟩

theorem table_eq_error (h : s.table id = .error error) :
    (id ∉ s.ids ∧ error = .unknownId id) ∨
      ∃ c ∈ s.cells, c.id = id ∧ c.isTable = false ∧ error = .notATable c.name := by
  unfold table cell at h
  cases hc : s.cell? id with
  | none =>
    rw [hc] at h
    cases h
    exact .inl ⟨not_mem_ids_iff.mpr hc, rfl⟩
  | some c =>
    simp only [hc] at h
    split at h
    next => cases h
    next hg =>
      cases h
      obtain ⟨hm, rfl⟩ := mem_of_cell? hc
      exact .inr ⟨c, hm, rfl, by simp [Cell.isTable, hg], rfl⟩

theorem createCell_eq_error {wanted formula : Option String}
    (h : s.createCell wanted formula = .error error) : s.claimName wanted = .error error := by
  unfold createCell at h
  split at h
  next he =>
    cases h
    exact he
  next => cases h

theorem createTable_eq_error {wanted : Option String} {rows cols : Nat}
    (h : s.createTable wanted rows cols = .error error) : s.claimName wanted = .error error := by
  unfold createTable at h
  split at h
  next he =>
    cases h
    exact he
  next => cases h

theorem setFormula_eq_error {formula : String} (h : s.setFormula id formula = .error error) :
    s.cell id = .error error ∨
      ∃ c ∈ s.cells, c.id = id ∧ c.isTable = true ∧ error = .notAFormula c.name := by
  unfold setFormula at h
  split at h
  next he =>
    cases h
    exact .inl he
  next c hc =>
    split at h
    next ht =>
      cases h
      obtain ⟨hm, hid⟩ := mem_of_cell_eq_ok hc
      exact .inr ⟨c, hm, hid, ht, rfl⟩
    next => cases h

theorem rename_eq_none (h : s.rename id name = none) : id ∉ s.ids ∨
    ∃ c ∈ s.cells, c.id = id ∧ c.name ≠ name ∧
      (isValidName name = false ∨ (s.idOf? name).isSome = true) := by
  unfold rename at h
  split at h
  next hc => exact .inl (not_mem_ids_iff.mpr hc)
  next c hc =>
    split_ifs at h with hn hv
    obtain ⟨hm, hid⟩ := mem_of_cell? hc
    exact .inr ⟨c, hm, hid, hn, by simpa using hv⟩

theorem setTableValue_eq_error {row col : Nat} {x : Float}
    (h : s.setTableValue id row col x = .error error) : s.table id = .error error ∨
      ∃ c grid, c ∈ s.cells ∧ c.id = id ∧ c.grid? = some grid ∧
        ¬(row < grid.rows ∧ col < grid.cols) ∧
        error = .data (.range row col grid.rows grid.cols) := by
  unfold setTableValue at h
  split at h
  next he =>
    cases h
    exact .inl he
  next grid hg =>
    obtain ⟨c, hc, hgrid⟩ := table_eq_ok hg
    obtain ⟨hm, hid⟩ := mem_of_cell? hc
    split at h
    next => cases h
    next cause hset =>
      cases h
      unfold Grid.set at hset
      split_ifs at hset with hout
      cases hset
      exact .inr ⟨c, grid, hm, hid, hgrid, hout, rfl⟩

theorem resizeTable_eq_error {rows cols : Nat} (h : s.resizeTable id rows cols = .error error) :
    s.table id = .error error := by
  unfold resizeTable at h
  split at h
  next he =>
    cases h
    exact he
  next => cases h

end Sheet

namespace Session

open Sheet

variable {s : Session} {op : Operation} {reply : Reply} {id : CellId}

theorem perform_of_claim {name : String} {error : SheetError} (wants : op.wants? = some name)
    (h : s.sheet.claimName (some name) = .error error) : s.perform op = s.keep (.failed error) := by
  cases op with
  | createCell wanted formula =>
    obtain rfl : wanted = some name := wants
    rw [perform_createCell_eq, createCell, h]
    rfl
  | createTable wanted rows cols =>
    obtain rfl : wanted = some name := wants
    rw [perform_createTable_eq, createTable, h]
    rfl
  | _ => cases wants

theorem perform_of_cell {error : SheetError} (about : op.about? = some id)
    (h : s.sheet.cell id = .error error) : s.perform op = s.keep (.failed error) := by
  cases op with
  | deleteCell x =>
    obtain rfl : x = id := Option.some.inj about
    rw [perform_deleteCell_eq, delete, deleteCell, h]
  | setFormula x formula =>
    obtain rfl : x = id := Option.some.inj about
    rw [perform_setFormula_eq, Sheet.setFormula, h]
    rfl
  | setTableValue x row col v =>
    obtain rfl : x = id := Option.some.inj about
    rw [perform_setTableValue_eq, setTableValue, table, h]
    rfl
  | resizeTable x rows cols =>
    obtain rfl : x = id := Option.some.inj about
    rw [perform_resizeTable_eq, resizeTable, table, h]
    rfl
  | subscribe x =>
    obtain rfl : x = id := Option.some.inj about
    rw [perform_subscribe_eq, subscribe, h]
  | _ => cases about

theorem perform_of_table {error : SheetError} (about : op.grid? = some id)
    (h : s.sheet.table id = .error error) : s.perform op = s.keep (.failed error) := by
  cases op with
  | setTableValue x row col v =>
    obtain rfl : x = id := Option.some.inj about
    rw [perform_setTableValue_eq, setTableValue, h]
    rfl
  | resizeTable x rows cols =>
    obtain rfl : x = id := Option.some.inj about
    rw [perform_resizeTable_eq, resizeTable, h]
    rfl
  | _ => cases about

/-- What fails for one of these causes leaves all as it was, and nobody is told of it. -/
theorem Refuses.perform_eq (h : s.Refuses op reply) (indexed : s.sheet.Indexed) :
    s.perform op = s.keep reply := by
  have hcell : ∀ c ∈ s.sheet.cells, s.sheet.cell? c.id = some c :=
    fun c hc => cell?_of_mem indexed.nodup hc
  cases h with
  | invalid wants invalid => exact perform_of_claim wants (by simp [claimName, invalid])
  | @taken _ c hc wants valid =>
    have hused := indexed.idOf?_isSome.mpr ⟨c, hc, rfl⟩
    exact perform_of_claim wants (by simp [claimName, valid, hused])
  | unknown about gone => exact perform_of_cell about (by rw [cell, not_mem_ids_iff.mp gone])
  | @noFormula c hc table formula =>
    simp [perform_setFormula_eq, Sheet.setFormula, cell, hcell c hc, table, attempt]
  | @noTable _ c hc about formula =>
    have hg : c.grid? = none := by simpa [Cell.isTable] using formula
    exact perform_of_table about (by simp [table, cell, hcell c hc, hg])
  | @outside c grid row col hc hg out x =>
    have hset : grid.set row col x = .error (.range row col grid.rows grid.cols) := dif_neg out
    simp [perform_setTableValue_eq, setTableValue, table, cell, hcell c hc, hg, hset, attempt]
  | nothingToRename gone name => simp [perform_rename_eq, Sheet.rename, not_mem_ids_iff.mp gone]
  | @noName c name hc other unusable =>
    have hunusable : (!isValidName name || (s.sheet.idOf? name).isSome) = true := by
      rcases unusable with h | h
      · simp [h]
      · simp [indexed.idOf?_isSome.mpr h]
    simp [perform_rename_eq, Sheet.rename, hcell c hc, other, hunusable]
  | noWatcher away => simp [perform_unsubscribe_eq, unsubscribe, Subscriptions.has, away]

theorem refuses_of_claim {wanted : Option String} {error : SheetError} (indexed : s.sheet.Indexed)
    (wants : op.wants? = wanted) (h : s.sheet.claimName wanted = .error error) :
    s.Refuses op (.failed error) := by
  obtain ⟨name, rfl, ⟨hinvalid, rfl⟩ | ⟨hvalid, hused, rfl⟩⟩ := claimName_eq_error h
  · exact .invalid wants hinvalid
  · obtain ⟨c, hc, rfl⟩ := indexed.idOf?_isSome.mp hused
    exact .taken hc wants hvalid

theorem refuses_of_cell {error : SheetError} (about : op.about? = some id)
    (h : s.sheet.cell id = .error error) : s.Refuses op (.failed error) := by
  obtain ⟨hgone, rfl⟩ := cell_eq_error h
  exact .unknown about hgone

theorem refuses_of_table {error : SheetError} (about : op.about? = some id)
    (grid : op.grid? = some id) (h : s.sheet.table id = .error error) :
    s.Refuses op (.failed error) := by
  rcases table_eq_error h with ⟨hgone, rfl⟩ | ⟨c, hc, rfl, hformula, rfl⟩
  · exact .unknown about hgone
  · exact .noTable hc grid hformula

theorem attempt_failure {result : Except SheetError Edit}
    (failure : (s.attempt result).reply.isFailure = true) :
    ∃ error, result = .error error ∧ (s.attempt result).reply = .failed error := by
  cases result with
  | error error => exact ⟨error, rfl, rfl⟩
  | ok e => cases failure

theorem attemptCreate_failure {result : Except SheetError (CellId × Edit)}
    (failure : (s.attemptCreate result).reply.isFailure = true) :
    ∃ error, result = .error error ∧ (s.attemptCreate result).reply = .failed error := by
  cases result with
  | error error => exact ⟨error, rfl, rfl⟩
  | ok made => cases failure

/-- Whatever fails does so for one of these causes. -/
theorem refuses_of_failure (indexed : s.sheet.Indexed)
    (failure : (s.perform op).reply.isFailure = true) : s.Refuses op (s.perform op).reply := by
  cases op with
  | createCell wanted formula =>
    rw [perform_createCell_eq] at failure ⊢
    obtain ⟨error, h, hreply⟩ := attemptCreate_failure failure
    rw [hreply]
    exact refuses_of_claim indexed rfl (createCell_eq_error h)
  | createTable wanted rows cols =>
    rw [perform_createTable_eq] at failure ⊢
    obtain ⟨error, h, hreply⟩ := attemptCreate_failure failure
    rw [hreply]
    exact refuses_of_claim indexed rfl (createTable_eq_error h)
  | deleteCell id =>
    simp only [perform_deleteCell_eq, delete, deleteCell] at failure ⊢
    cases hc : s.sheet.cell id with
    | error error => exact refuses_of_cell rfl hc
    | ok c =>
      rw [hc] at failure
      cases failure
  | setFormula id formula =>
    rw [perform_setFormula_eq] at failure ⊢
    obtain ⟨error, h, hreply⟩ := attempt_failure failure
    rw [hreply]
    rcases setFormula_eq_error h with h | ⟨c, hc, rfl, htable, rfl⟩
    · exact refuses_of_cell rfl h
    · exact .noFormula hc htable formula
  | rename id name =>
    simp only [perform_rename_eq] at failure ⊢
    cases h : s.sheet.rename id name with
    | none =>
      rcases rename_eq_none h with hgone | ⟨c, hc, rfl, hother, hunusable⟩
      · exact .nothingToRename hgone name
      · exact .noName hc hother (hunusable.imp_right indexed.idOf?_isSome.mp)
    | some e =>
      rw [h] at failure
      cases failure
  | setTableValue id row col x =>
    rw [perform_setTableValue_eq] at failure ⊢
    obtain ⟨error, h, hreply⟩ := attempt_failure failure
    rw [hreply]
    rcases setTableValue_eq_error h with h | ⟨c, grid, hc, rfl, hg, hout, rfl⟩
    · exact refuses_of_table rfl rfl h
    · exact .outside hc hg hout x
  | resizeTable id rows cols =>
    rw [perform_resizeTable_eq] at failure ⊢
    obtain ⟨error, h, hreply⟩ := attempt_failure failure
    rw [hreply]
    exact refuses_of_table rfl rfl (resizeTable_eq_error h)
  | subscribe id =>
    simp only [perform_subscribe_eq, subscribe] at failure ⊢
    cases hc : s.sheet.cell id with
    | error error => exact refuses_of_cell rfl hc
    | ok c =>
      rw [hc] at failure
      cases failure
  | unsubscribe id handle =>
    simp only [perform_unsubscribe_eq, unsubscribe] at failure ⊢
    split at failure
    next => cases failure
    next haway =>
      rw [if_neg haway]
      exact .noWatcher (by simpa [Subscriptions.has] using haway)

theorem Refuses.isFailure (h : s.Refuses op reply) : reply.isFailure = true := by
  cases h <;> rfl

theorem perform_of_failure (indexed : s.sheet.Indexed)
    (failure : (s.perform op).reply.isFailure = true) :
    s.perform op = s.keep (s.perform op).reply :=
  (refuses_of_failure indexed failure).perform_eq indexed

/-- Of some operations, those that do not fail in their turn. -/
def accepted (s : Session) : List Operation → List Operation
  | [] => []
  | op :: rest =>
    let step := s.perform op
    if step.reply.isFailure then s.accepted rest else op :: step.session.accepted rest

/-- Operations that fail make no difference, neither to the sheet nor to those who watch it. -/
theorem accepted_eq (sound : s.sheet.Sound) (operations : List Operation) :
    s.run (s.accepted operations) = s.run operations ∧
      ∀ handle, s.toldTo handle (s.accepted operations) = s.toldTo handle operations := by
  -- An operation that fails is dropped and leaves the session to the rest; one that does not is in
  -- both lists, and the rest starts from the same sound sheet.
  induction operations generalizing s with
  | nil => exact ⟨rfl, fun _ => rfl⟩
  | cons op rest ih =>
    by_cases failure : (s.perform op).reply.isFailure = true
    · have hkeep := perform_of_failure sound.indexed failure
      have haccepted : s.accepted (op :: rest) = s.accepted rest := if_pos failure
      have hsession : (s.perform op).session = s := by rw [hkeep, keep]
      have hsilent : ∀ handle, (s.perform op).eventsFor handle = [] := by
        intro handle
        rw [hkeep]
        rfl
      obtain ⟨hrun, htold⟩ := ih sound
      refine ⟨?_, fun handle => ?_⟩
      · rw [haccepted, hrun, run, run, List.foldl_cons, hsession]
      · rw [haccepted, htold, toldTo, hsession, hsilent, List.nil_append]
    · have haccepted : s.accepted (op :: rest) = op :: (s.perform op).session.accepted rest :=
        if_neg failure
      obtain ⟨hrun, htold⟩ := ih (perform_sound sound op)
      refine ⟨?_, fun handle => ?_⟩
      · rw [haccepted]
        exact hrun
      · rw [haccepted, toldTo, toldTo, htold]

/-- After any operations, one that fails leaves the cells, their names, the numbers last used and
the subscriptions as they were, and nobody is told of it. It fails for one of the causes above, and
for each of them. So the operations that fail on the way make no difference. -/
theorem run_atomic (settings : Settings) (operations : List Operation) :
    let start := new settings
    let s := start.run operations
    (∀ op, (s.perform op).reply.isFailure = true → (s.perform op).session = s ∧
        (s.perform op).delivered = [] ∧ s.Refuses op (s.perform op).reply) ∧
      (∀ op reply, s.Refuses op reply → reply.isFailure = true ∧ s.perform op = ⟨s, reply, []⟩) ∧
      start.run (start.accepted operations) = s ∧
      ∀ handle, start.toldTo handle (start.accepted operations) =
        start.toldTo handle operations := by
  intro start s
  have indexed : s.sheet.Indexed := (run_sound settings operations).indexed
  refine ⟨fun op failure => ?_, fun op reply h => ⟨h.isFailure, h.perform_eq indexed⟩,
    accepted_eq (Sound.new settings) operations⟩
  have hkeep := perform_of_failure indexed failure
  refine ⟨?_, ?_, refuses_of_failure indexed failure⟩
  · rw [hkeep, keep]
  · rw [hkeep, keep]

end Session

end LiveSheet
