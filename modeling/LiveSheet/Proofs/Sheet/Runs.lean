import LiveSheet.Proofs.Sheet.Operations
import LiveSheet.Proofs.Sheet.Stepwise

namespace LiveSheet

open Relation

/-- An operation that succeeds on the sheet makes this edit of it. -/
inductive Sheet.Makes (s : Sheet) : Edit → Prop
  | createCell {name formula : Option String} {id : CellId} {e : Edit}
    (h : s.createCell name formula = .ok (id, e)) : s.Makes e
  | createTable {name : Option String} {rows cols : Nat} {id : CellId} {e : Edit}
    (h : s.createTable name rows cols = .ok (id, e)) : s.Makes e
  | deleteCell {id : CellId} {e : Edit} (h : s.deleteCell id = .ok e) : s.Makes e
  | setFormula {id : CellId} {formula : String} {e : Edit}
    (h : s.setFormula id formula = .ok e) : s.Makes e
  | rename {id : CellId} {name : String} {e : Edit} (h : s.rename id name = some e) : s.Makes e
  | setTableValue {id : CellId} {row col : Nat} {x : Float} {e : Edit}
    (h : s.setTableValue id row col x = .ok e) : s.Makes e
  | resizeTable {id : CellId} {rows cols : Nat} {e : Edit}
    (h : s.resizeTable id rows cols = .ok e) : s.Makes e

/-- The operation succeeds on the sheet with this edit of it, and is answered so. -/
inductive Sheet.Accepts (s : Sheet) : Operation → Reply → Edit → Prop
  | createCell {name formula : Option String} {id : CellId} {e : Edit}
    (h : s.createCell name formula = .ok (id, e)) :
    s.Accepts (.createCell name formula) (.created id) e
  | createTable {name : Option String} {rows cols : Nat} {id : CellId} {e : Edit}
    (h : s.createTable name rows cols = .ok (id, e)) :
    s.Accepts (.createTable name rows cols) (.created id) e
  | deleteCell {id : CellId} {e : Edit} (h : s.deleteCell id = .ok e) :
    s.Accepts (.deleteCell id) .done e
  | setFormula {id : CellId} {formula : String} {e : Edit} (h : s.setFormula id formula = .ok e) :
    s.Accepts (.setFormula id formula) .done e
  | rename {id : CellId} {name : String} {e : Edit} (h : s.rename id name = some e) :
    s.Accepts (.rename id name) (.flag true) e
  | setTableValue {id : CellId} {row col : Nat} {x : Float} {e : Edit}
    (h : s.setTableValue id row col x = .ok e) : s.Accepts (.setTableValue id row col x) .done e
  | resizeTable {id : CellId} {rows cols : Nat} {e : Edit}
    (h : s.resizeTable id rows cols = .ok e) : s.Accepts (.resizeTable id rows cols) .done e

theorem Sheet.Accepts.makes {s : Sheet} {op : Operation} {reply : Reply} {e : Edit}
    (h : s.Accepts op reply e) : s.Makes e := by
  cases h with
  | createCell h => exact .createCell h
  | createTable h => exact .createTable h
  | deleteCell h => exact .deleteCell h
  | setFormula h => exact .setFormula h
  | rename h => exact .rename h
  | setTableValue h => exact .setTableValue h
  | resizeTable h => exact .resizeTable h

namespace Session

/-- An operation leaves the sheet as it is, without a word and without a new cell, or makes an edit
of it and tells its changes. -/
theorem perform_accepts (s : Session) (op : Operation) :
    ((s.perform op).session.sheet = s.sheet ∧ (s.perform op).delivered = [] ∧
      ∀ id, (s.perform op).reply ≠ .created id) ∨
      ∃ e, s.sheet.Accepts op (s.perform op).reply e ∧ (s.perform op).session.sheet = e.sheet ∧
        (s.perform op).delivered = s.subscriptions.deliver e.changes := by
  cases op with
  | createCell name formula =>
    rw [perform_createCell_eq]
    cases h : s.sheet.createCell name formula with
    | error e => exact .inl ⟨rfl, rfl, fun _ h => by cases h⟩
    | ok made => exact .inr ⟨made.2, .createCell h, rfl, rfl⟩
  | createTable name rows cols =>
    rw [perform_createTable_eq]
    cases h : s.sheet.createTable name rows cols with
    | error e => exact .inl ⟨rfl, rfl, fun _ h => by cases h⟩
    | ok made => exact .inr ⟨made.2, .createTable h, rfl, rfl⟩
  | deleteCell id =>
    simp only [perform_deleteCell_eq, delete]
    cases h : s.sheet.deleteCell id with
    | error e => exact .inl ⟨rfl, rfl, fun _ h => by cases h⟩
    | ok e => exact .inr ⟨e, .deleteCell h, rfl, rfl⟩
  | setFormula id formula =>
    rw [perform_setFormula_eq]
    cases h : s.sheet.setFormula id formula with
    | error e => exact .inl ⟨rfl, rfl, fun _ h => by cases h⟩
    | ok e => exact .inr ⟨e, .setFormula h, rfl, rfl⟩
  | rename id name =>
    rw [perform_rename_eq]
    cases h : s.sheet.rename id name with
    | none => exact .inl ⟨rfl, rfl, fun _ h => by cases h⟩
    | some e => exact .inr ⟨e, .rename h, rfl, rfl⟩
  | setTableValue id row col x =>
    rw [perform_setTableValue_eq]
    cases h : s.sheet.setTableValue id row col x with
    | error e => exact .inl ⟨rfl, rfl, fun _ h => by cases h⟩
    | ok e => exact .inr ⟨e, .setTableValue h, rfl, rfl⟩
  | resizeTable id rows cols =>
    rw [perform_resizeTable_eq]
    cases h : s.sheet.resizeTable id rows cols with
    | error e => exact .inl ⟨rfl, rfl, fun _ h => by cases h⟩
    | ok e => exact .inr ⟨e, .resizeTable h, rfl, rfl⟩
  | subscribe id =>
    simp only [perform_subscribe_eq, subscribe]
    cases s.sheet.cell id <;> exact .inl ⟨rfl, rfl, fun _ h => by cases h⟩
  | unsubscribe id handle =>
    simp only [perform_unsubscribe_eq, unsubscribe]
    split <;> exact .inl ⟨rfl, rfl, fun _ h => by cases h⟩

theorem perform_edit (s : Session) (op : Operation) :
    ((s.perform op).session.sheet = s.sheet ∧ (s.perform op).delivered = []) ∨
      ∃ e, s.sheet.Makes e ∧ (s.perform op).session.sheet = e.sheet ∧
        (s.perform op).delivered = s.subscriptions.deliver e.changes := by
  rcases s.perform_accepts op with ⟨hsheet, hsilent, -⟩ | ⟨e, haccepts, hsheet, htold⟩
  · exact .inl ⟨hsheet, hsilent⟩
  · exact .inr ⟨e, haccepts.makes, hsheet, htold⟩

/-- What every edit keeps holds of the sheet after all operations. -/
theorem run_invariant (Holds : Sheet → Prop) (keeps : ∀ s e, Holds s → s.Makes e → Holds e.sheet)
    {s : Session} (start : Holds s.sheet) (operations : List Operation) :
    Holds (s.run operations).sheet := by
  induction operations generalizing s with
  | nil => exact start
  | cons op rest ih =>
    apply ih (s := (s.perform op).session)
    rcases s.perform_edit op with ⟨h, -⟩ | ⟨e, hm, h, -⟩
    · rw [h]
      exact start
    · rw [h]
      exact keeps s.sheet e start hm

end Session

theorem Sheet.Makes.sound {s : Sheet} {e : Edit} (h : s.Makes e) (hs : s.Sound) :
    e.sheet.Sound := by
  cases h with
  | createCell h => exact createCell_sound hs h
  | createTable h => exact createTable_sound hs h
  | deleteCell h => exact deleteCell_sound hs h
  | setFormula h => exact setFormula_sound hs h
  | rename h => exact rename_sound hs h
  | setTableValue h =>
    obtain ⟨c, grid, hc, -, rfl⟩ := setTableValue_eq_ok h
    exact replaceGrid_sound hs hc grid
  | resizeTable h =>
    obtain ⟨c, grid, hc, -, rfl⟩ := resizeTable_eq_ok h
    exact replaceGrid_sound hs hc grid

theorem Session.run_sound (settings : Settings) (operations : List Operation) :
    ((Session.new settings).run operations).sheet.Sound :=
  run_invariant Sheet.Sound (fun _ _ hs h => h.sound hs) (Sheet.Sound.new settings) operations

/-- After any operations, references lead to cells that exist and back references mirror them;
no cell depends on itself, and the transitive references of every cell are exactly what it can
reach. -/
theorem Session.run_linked (settings : Settings) (operations : List Operation) :
    let s := ((Session.new settings).run operations).sheet
    (∀ c ∈ s.cells, ∀ x, x ∈ c.references ∨ x ∈ c.deep ∨ x ∈ c.referencedBy → x ∈ s.ids) ∧
      (∀ a ∈ s.cells, ∀ b ∈ s.cells, a.id ∈ b.references ↔ b.id ∈ a.referencedBy) ∧
      (Acyclic s.referencesOf ∧ ∀ c ∈ s.cells, c.id ∉ c.deep) ∧
      ∀ c ∈ s.cells, ∀ x, x ∈ c.deep ↔ TransGen s.Refers c.id x := by
  intro s
  have hs : s.Sound := run_sound settings operations
  have hcell : ∀ c ∈ s.cells, s.cell? c.id = some c := fun c hc =>
    Sheet.cell?_of_mem hs.indexed.nodup hc
  have hrefs : ∀ c ∈ s.cells, ∀ x, x ∈ c.references ↔ s.Refers c.id x := by
    intro c hc x
    rw [Sheet.Refers, Leads, Sheet.referencesOf_of_cell? (hcell c hc)]
    rfl
  have hdeps : ∀ c ∈ s.cells, ∀ x, x ∈ c.referencedBy ↔ s.Refers x c.id := by
    intro c hc x
    refine Iff.trans ?_ (hs.linked.inverse x c.id).symm
    rw [Sheet.dependentsOf_of_cell? (hcell c hc)]
    rfl
  have hdeep : ∀ c ∈ s.cells, ∀ x, x ∈ c.deep ↔ TransGen s.Refers c.id x := by
    intro c hc x
    rw [← Sheet.deepOf_of_cell? (hcell c hc)]
    exact (hs.upToDate c.id).deep x
  refine ⟨?_, ?_, ⟨hs.linked.acyclic, ?_⟩, hdeep⟩
  · rintro c hc x (hx | hx | hx)
    · exact hs.linked.mem_ids ((hrefs c hc x).mp hx)
    · exact hs.linked.mem_ids_of_transGen ((hdeep c hc x).mp hx)
    · exact Sheet.mem_ids_of_mem_referencesOf ((hdeps c hc x).mp hx)
  · intro a ha b hb
    rw [hrefs b hb, hdeps a ha]
  · intro c hc hx
    exact hs.linked.acyclic c.id ((hdeep c hc c.id).mp hx)

/-- After any operations, a formula cell has no tree exactly if its error is structural, carries an
error only from a cell it depends on, and, unless one of these is circular, carries an error exactly
if there is one below it and otherwise shows what its tree gives. -/
theorem Session.run_settled (settings : Settings) (operations : List Operation) :
    let s := ((Session.new settings).run operations).sheet
    (∀ c ∈ s.cells, c.isTable = false → (c.tree? = none ↔
      c.errorKind? = some .definition ∨ c.errorKind? = some .circularReference)) ∧
      (∀ c ∈ s.cells, c.isTable = false → c.errorKind? = some .carried →
        ∃ id ∈ c.deep, s.hasError id = true) ∧
      ∀ c ∈ s.cells, c.isTable = false →
        ¬(c.errorKind? = some .definition ∨ c.errorKind? = some .circularReference) →
        (∀ id ∈ c.deep, ¬s.IsCircular id) →
        (c.errorKind? = some .carried ↔ ∃ id ∈ c.deep, s.hasError id = true) ∧
          ((∀ id ∈ c.deep, s.hasError id = false) → ∃ tree, c.tree? = some tree ∧
            match tree.eval s.context with
            | .ok v => c.error = none ∧ c.value.Same v
            | .error _ => c.errorKind? = some .evaluation) := by
  intro s
  have hs : s.Sound := run_sound settings operations
  have hcell : ∀ c ∈ s.cells, s.cell? c.id = some c := fun c hc =>
    Sheet.cell?_of_mem hs.indexed.nodup hc
  have hsettled : ∀ c ∈ s.cells, c.isTable = false → s.Settled c := fun c hc ht =>
    (hs.upToDate c.id).settled c (hcell c hc) ht
  refine ⟨?_, ?_, ?_⟩
  · intro c hc ht
    rw [← Cell.isStructural_iff]
    exact hs.classified c.id c (hcell c hc) ht
  · exact fun c hc ht hk => (hsettled c hc ht).carried hk
  · intro c hc ht hk hn
    rw [← Cell.isStructural_iff, Bool.not_eq_true] at hk
    have hcur := (hsettled c hc ht).current hk hn
    refine ⟨hcur.carried, fun hclear => hcur.yields ?_⟩
    rintro ⟨x, hx, he⟩
    rw [hclear x hx] at he
    cases he

end LiveSheet
