import LiveSheet.Proofs.Formula.Evaluation

namespace LiveSheet

/-- A cell occurs in a tree, as a reference or as the table that is looked into. -/
inductive Expr.Mentions (id : CellId) : Expr → Prop
  | cell {ref : CellRef} (same : ref.id = id) : Mentions id (.cell ref)
  | table {table : CellRef} {row col : Expr} (same : table.id = id) :
    Mentions id (.element table row col)
  | row {table : CellRef} {row col : Expr} (part : Mentions id row) :
    Mentions id (.element table row col)
  | col {table : CellRef} {row col : Expr} (part : Mentions id col) :
    Mentions id (.element table row col)
  | operand {op : UnaryOp} {x : Expr} (part : Mentions id x) : Mentions id (.unary op x)
  | left {op : BinaryOp} {l r : Expr} (part : Mentions id l) : Mentions id (.binary op l r)
  | right {op : BinaryOp} {l r : Expr} (part : Mentions id r) : Mentions id (.binary op l r)
  | arg {f : Function} {args : List Expr} {x : Expr} (mem : x ∈ args) (part : Mentions id x) :
    Mentions id (.call f args)

namespace Expr

variable {id : CellId} {ctx ctx' : Context}

theorem Mentions.mem_cells {e : Expr} (h : e.Mentions id) : id ∈ e.cells := by
  induction h with
  | cell same => simp [cells, same]
  | table same => simp [cells, same]
  | row _ ih => simp [cells, ih]
  | col _ ih => simp [cells, ih]
  | operand _ ih => exact ih
  | left _ ih => exact List.mem_append_left _ ih
  | right _ ih => exact List.mem_append_right _ ih
  | arg mem _ ih =>
    rw [cells, cellsAll_eq]
    exact List.mem_flatMap.mpr ⟨_, mem, ih⟩

mutual

theorem mentions_of_mem_cells (e : Expr) (h : id ∈ e.cells) : e.Mentions id := by
  cases e with
  | literal v => cases h
  | cell ref => exact .cell (List.mem_singleton.mp h).symm
  | element table row col =>
    rcases List.mem_cons.mp h with h | h
    · exact .table h.symm
    · rcases List.mem_append.mp h with h | h
      · exact .row (mentions_of_mem_cells row h)
      · exact .col (mentions_of_mem_cells col h)
  | unary op x => exact .operand (mentions_of_mem_cells x h)
  | binary op l r =>
    rcases List.mem_append.mp h with h | h
    · exact .left (mentions_of_mem_cells l h)
    · exact .right (mentions_of_mem_cells r h)
  | call f args =>
    obtain ⟨x, hx, hmentions⟩ := mentions_of_mem_cellsAll args h
    exact .arg hx hmentions

theorem mentions_of_mem_cellsAll (es : List Expr) (h : id ∈ cellsAll es) :
    ∃ x ∈ es, x.Mentions id := by
  cases es with
  | nil => cases h
  | cons e es =>
    rcases List.mem_append.mp h with h | h
    · exact ⟨e, List.mem_cons_self, mentions_of_mem_cells e h⟩
    · obtain ⟨x, hx, hmentions⟩ := mentions_of_mem_cellsAll es h
      exact ⟨x, List.mem_cons_of_mem e hx, hmentions⟩

end

theorem mem_references_iff_mentions {e : Expr} : id ∈ e.references ↔ e.Mentions id := by
  rw [mem_references]
  exact ⟨mentions_of_mem_cells e, Mentions.mem_cells⟩

/-- Contexts that agree on the cells of a tree are not told apart by it. -/
theorem eval_eq_of_references {e : Expr}
    (agree : ∀ ref : CellRef, ref.id ∈ e.references → ctx.value ref = ctx'.value ref ∧
      ∀ row col, ctx.element ref row col = ctx'.element ref row col) :
    e.eval ctx = e.eval ctx' := by
  apply SameUpTo.eq
  apply eval_sameUpTo fun _ => rfl
  intro ref href
  obtain ⟨hvalue, helement⟩ := agree ref (mem_references.mpr (mem_cells_of_mem_refs href))
  refine ⟨?_, fun row col => ?_⟩
  · rw [hvalue]
    exact .refl (fun _ => rfl) _
  · rw [helement]
    exact .refl (fun _ => rfl) _

end Expr

/-- The references of a tree are all that its value depends on, and are all written in it. -/
theorem Expr.references_cover (e : Expr) :
    (∀ ctx ctx' : Context, (∀ ref : CellRef, ref.id ∈ e.references →
        ctx.value ref = ctx'.value ref ∧
          ∀ row col, ctx.element ref row col = ctx'.element ref row col) →
      e.eval ctx = e.eval ctx') ∧
    ∀ id, id ∈ e.references ↔ e.Mentions id :=
  ⟨fun _ _ agree => eval_eq_of_references agree, fun _ => mem_references_iff_mentions⟩

/-- The references of `a + t[b; 1]`, in contexts that find something else in any other cell. -/
theorem Expr.references_cover_table :
    let e : Expr := .binary .add (.cell ⟨⟨0⟩, "a"⟩)
      (.element ⟨⟨1⟩, "t"⟩ (.cell ⟨⟨2⟩, "b"⟩) (.literal (.string "1")))
    let ctx : Context := ⟨fun _ => .ok (.string "1"), fun _ _ _ => .ok (.boolean true)⟩
    let ctx' : Context :=
      ⟨fun ref => if ref.id.number < 3 then .ok (.string "1") else .error (.unknownCell ref.name),
        fun ref row col => if ref.id.number < 3 then .ok (.boolean true) else
          .ok (.string s!"{row}, {col}")⟩
    (∀ ref : CellRef, ref.id ∈ e.references → ctx.value ref = ctx'.value ref ∧
      ∀ row col, ctx.element ref row col = ctx'.element ref row col) ∧
    e.eval ctx = e.eval ctx' ∧ ∀ id, id ∈ e.references ↔ e.Mentions id := by
  intro e ctx ctx'
  have agree : ∀ ref : CellRef, ref.id ∈ e.references → ctx.value ref = ctx'.value ref ∧
      ∀ row col, ctx.element ref row col = ctx'.element ref row col := by
    intro ref href
    have hsmall : ref.id.number < 3 := by
      have hall : ∀ id ∈ e.references.ids, id.number < 3 := by decide
      exact hall ref.id href
    simp [ctx, ctx', hsmall]
  exact ⟨agree, (Expr.references_cover e).1 ctx ctx' agree, (Expr.references_cover e).2⟩

end LiveSheet
