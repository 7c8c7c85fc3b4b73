import LiveSheet.Proofs.Formula.Evaluation
import LiveSheet.Proofs.Sheet.Lookup

namespace LiveSheet

theorem float_beq_self {x : Float} (h : x.isNaN = false) : (x == x) = true := by
  change (x.toModel.unpack.compare x.toModel.unpack == some .eq) = true
  change x.toModel.unpack.isNaN = false at h
  cases hu : x.toModel.unpack with
  | notANumber => rw [hu] at h; cases h
  | infinity s => cases s <;> decide
  | zero s => rfl
  | finite s m e =>
    have hsame : (compare e e).then (compare m m) = .eq := by simp
    cases s with
    | negative =>
      show (some ((compare e e).then (compare m m)).swap == some .eq) = true
      rw [hsame]
      rfl
    | positive =>
      show (some ((compare e e).then (compare m m)) == some .eq) = true
      rw [hsame]
      rfl

def Value.isNaN : Value → Bool
  | .float x => x.isNaN
  | _ => false

/-- Equal as values, or both not a number. -/
def Value.Same (v w : Value) : Prop :=
  (v == w) = true ∨ (v.isNaN = true ∧ w.isNaN = true)

theorem Value.same_refl (v : Value) : v.Same v := by
  cases v with
  | float x =>
    cases h : x.isNaN with
    | true => exact .inr ⟨h, h⟩
    | false => exact .inl (float_beq_self h)
  | integer n => exact .inl (beq_self_eq_true n)
  | string s => exact .inl (beq_self_eq_true s)
  | boolean b => exact .inl (beq_self_eq_true b)

def Cell.errorKind? (c : Cell) : Option ErrorKind :=
  c.error.map CellError.kind

theorem Cell.isStructural_iff {c : Cell} : c.isStructural = true ↔
    c.errorKind? = some .definition ∨ c.errorKind? = some .circularReference := by
  cases h : c.error <;> simp [isStructural, errorKind?, CellError.isStructural, h]

theorem Cell.hasError_of_errorKind? {c : Cell} {k : ErrorKind} (h : c.errorKind? = some k) :
    c.hasError = true := by
  cases he : c.error <;> simp [errorKind?, hasError, he] at h ⊢

/-- Other cells find the same in both cells, but for the names in error messages. -/
structure Cell.SameFace (c d : Cell) : Prop where
  value : c.value = d.value
  error : c.error = d.error
  grid : c.grid? = d.grid?

theorem Cell.SameFace.refl (c : Cell) : c.SameFace c :=
  ⟨rfl, rfl, rfl⟩

theorem Cell.read_eq (c : Cell) : c.read = match c.error with
    | some e => .error e
    | none => if c.isTable then .error (.noScalar c.name) else .ok c.value := by
  unfold read isTable grid?
  cases c.error <;> cases c.content <;> rfl

theorem Cell.read_of_error {c : Cell} {e : CellError} (h : c.error = some e) :
    c.read = .error e := by
  rw [read_eq, h]

theorem Cell.read_eq_ok {c : Cell} {v : Value} (formula : c.isTable = false) :
    c.read = .ok v ↔ c.error = none ∧ c.value = v := by
  rw [read_eq]
  cases c.error <;> simp [formula]

theorem Cell.SameFace.read {c d : Cell} (h : c.SameFace d) :
    (∃ v, c.read = .ok v ∧ d.read = .ok v) ∨ ∃ e e', c.read = .error e ∧ d.read = .error e' := by
  have ht : d.isTable = c.isTable := by rw [isTable, isTable, h.grid]
  rw [c.read_eq, d.read_eq, ← h.error, ← h.value, ht]
  cases c.error with
  | some e => exact .inr ⟨e, e, rfl, rfl⟩
  | none =>
    cases c.isTable with
    | true => exact .inr ⟨_, _, rfl, rfl⟩
    | false => exact .inl ⟨_, rfl, rfl⟩

/-- The cells have the same tree and dependencies, and show the same. -/
structure Cell.SameState (c d : Cell) : Prop where
  value : c.value = d.value
  error : c.error = d.error
  tree : c.tree? = d.tree?
  deep : c.deep = d.deep

theorem Cell.SameState.refl (c : Cell) : c.SameState c :=
  ⟨rfl, rfl, rfl, rfl⟩

theorem Cell.SameState.errorKind? {c d : Cell} (h : c.SameState d) :
    c.errorKind? = d.errorKind? := by
  rw [Cell.errorKind?, Cell.errorKind?, h.error]

theorem Cell.SameState.isStructural {c d : Cell} (h : c.SameState d) :
    c.isStructural = d.isStructural := by
  rw [Cell.isStructural, Cell.isStructural, h.error]

theorem Cell.sameFace_of_core {c d : Cell} (h : d.core = c.core) : c.SameFace d := by
  have hv : d.core.value = c.core.value := by rw [h]
  have he : d.core.error = c.core.error := by rw [h]
  have hg : d.core.grid? = c.core.grid? := by rw [h]
  exact ⟨hv.symm, he.symm, hg.symm⟩

theorem Cell.sameState_of_core {c d : Cell} (h : d.core = c.core) : c.SameState d := by
  have hv : d.core.value = c.core.value := by rw [h]
  have he : d.core.error = c.core.error := by rw [h]
  have ht : d.core.tree? = c.core.tree? := by rw [h]
  have hd : d.core.deep = c.core.deep := by rw [h]
  exact ⟨hv.symm, he.symm, ht.symm, hd.symm⟩

namespace Sheet

def IsCircular (s : Sheet) (id : CellId) : Prop :=
  ∃ c, s.cell? id = some c ∧ c.errorKind? = some .circularReference

/-- The cell depends on a cell in an error state. -/
def BelowError (s : Sheet) (c : Cell) : Prop :=
  ∃ id ∈ c.deep, s.hasError id = true

/-- The cell shows what its tree evaluates to, or that it fails. -/
def Yields (s : Sheet) (c : Cell) (tree : Expr) : Prop :=
  match tree.eval s.context with
  | .ok v => c.error = none ∧ c.value.Same v
  | .error _ => c.errorKind? = some .evaluation

/-- The cell carries an error exactly if it depends on one, and else shows what its tree gives. -/
structure Current (s : Sheet) (c : Cell) : Prop where
  carried : c.errorKind? = some .carried ↔ s.BelowError c
  yields : ¬s.BelowError c → ∃ tree, c.tree? = some tree ∧ s.Yields c tree

/-- A cell is up to date, unless it waits for a circular reference to be resolved. -/
structure Settled (s : Sheet) (c : Cell) : Prop where
  carried : c.errorKind? = some .carried → s.BelowError c
  current : c.isStructural = false → (∀ id ∈ c.deep, ¬s.IsCircular id) → s.Current c

/-- Both sheets show the same at a cell. -/
def SameFace (s t : Sheet) (id : CellId) : Prop :=
  Option.Rel Cell.SameFace (s.cell? id) (t.cell? id)

theorem SameFace.of_cell?_eq {s t : Sheet} {id : CellId} (h : s.cell? id = t.cell? id) :
    s.SameFace t id := by
  unfold SameFace
  rw [h]
  cases t.cell? id with
  | none => exact .none
  | some c => exact .some (.refl c)

theorem SameFace.hasError_eq {s t : Sheet} {id : CellId} (h : s.SameFace t id) :
    s.hasError id = t.hasError id := by
  unfold SameFace at h
  unfold hasError
  generalize s.cell? id = x, t.cell? id = y at h
  cases h with
  | none => rfl
  | some h => simp [Cell.hasError, h.error]

theorem SameFace.isCircular {s t : Sheet} {id : CellId} (h : s.SameFace t id)
    (hs : s.IsCircular id) : t.IsCircular id := by
  obtain ⟨c, hc, hk⟩ := hs
  unfold SameFace at h
  rw [hc] at h
  cases hd : t.cell? id with
  | none => rw [hd] at h; cases h
  | some d =>
    rw [hd] at h
    cases h with
    | some h => exact ⟨d, hd, by simpa [Cell.errorKind?, h.error] using hk⟩

theorem SameCore.sameFace {s t : Sheet} {id : CellId} (h : s.SameCore t id) :
    s.SameFace t id := by
  unfold SameCore at h
  unfold SameFace
  generalize s.cell? id = x, t.cell? id = y at h
  cases x with
  | none =>
    rw [Option.map_eq_none_iff.mp h]
    exact .none
  | some c =>
    obtain ⟨d, rfl, hd⟩ := Option.map_eq_some_iff.mp h
    exact .some (Cell.sameFace_of_core hd)

/-- Formulas find the same in both sheets where these show the same. -/
theorem SameFace.agreeOn {s t : Sheet} {ref : CellRef} (h : s.SameFace t ref.id) :
    s.context.AgreeOn (fun _ _ => True) t.context ref := by
  unfold SameFace at h
  cases hc : s.cell? ref.id with
  | none =>
    rw [hc] at h
    cases hd : t.cell? ref.id with
    | some d => rw [hd] at h; cases h
    | none =>
      refine ⟨?_, fun row col => ?_⟩
      all_goals simp only [context, referenced, hc, hd]; exact .error trivial
  | some c =>
    rw [hc] at h
    cases hd : t.cell? ref.id with
    | none => rw [hd] at h; cases h
    | some d =>
      rw [hd] at h
      obtain ⟨h⟩ := h
      refine ⟨?_, fun row col => ?_⟩
      · simp only [context, referenced, hc, hd, bind, Except.bind]
        rcases h.read with ⟨v, hv, hw⟩ | ⟨e, e', he, he'⟩
        · rw [hv, hw]; exact .ok v
        · rw [he, he']; exact .error trivial
      · simp only [context, referenced, hc, hd, ← h.grid, bind, Except.bind]
        cases c.grid? with
        | none => exact .error trivial
        | some grid => exact .refl (fun _ => trivial) _

theorem Yields.congr {s t : Sheet} {c d : Cell} {tree : Expr} (h : s.Yields c tree)
    (same : c.SameState d) (named : ∀ id ∈ tree.cells, s.SameFace t id) : t.Yields d tree := by
  have he := tree.eval_sameUpTo (fun _ => trivial) fun ref hr =>
    (named ref.id (Expr.mem_cells_of_mem_refs hr)).agreeOn
  unfold Yields at h ⊢
  rw [← same.value, ← same.error, ← same.errorKind?]
  generalize tree.eval s.context = x, tree.eval t.context = y at h he
  cases he with
  | ok v => exact h
  | error _ => exact h

/-- A cell stays settled if nothing that it depends on looks different. -/
theorem Settled.congr {s t : Sheet} {c d : Cell} (h : s.Settled c) (same : c.SameState d)
    (deep : ∀ id ∈ c.deep, s.SameFace t id)
    (named : ∀ tree, c.tree? = some tree → ∀ id ∈ tree.cells, s.SameFace t id) :
    t.Settled d := by
  have hbelow : s.BelowError c ↔ t.BelowError d := by
    unfold BelowError
    rw [← same.deep]
    apply exists_congr
    intro id
    apply and_congr_right
    intro hid
    rw [(deep id hid).hasError_eq]
  refine ⟨fun hc => ?_, fun hs hn => ?_⟩
  · rw [← same.errorKind?] at hc
    exact hbelow.mp (h.carried hc)
  · rw [← same.isStructural] at hs
    rw [← same.deep] at hn
    have hcur := h.current hs fun id hid hc => hn id hid ((deep id hid).isCircular hc)
    refine ⟨?_, fun hb => ?_⟩
    · rw [← same.errorKind?]
      exact hcur.carried.trans hbelow
    · obtain ⟨tree, ht, hy⟩ := hcur.yields fun hb' => hb (hbelow.mp hb')
      exact ⟨tree, same.tree ▸ ht, hy.congr same (named tree ht)⟩

end Sheet

end LiveSheet
