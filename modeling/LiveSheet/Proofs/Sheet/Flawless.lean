import Mathlib.Order.WellFoundedSet
import LiveSheet.Proofs.Formula.Transfer
import LiveSheet.Proofs.Sheet.LateBinding

namespace LiveSheet

open Relation

namespace Sheet

variable {s t : Sheet} {x y : CellId} {b c : Cell} {ref : CellRef} {v : Value}

theorem context_value_eq_ok : s.context.value ref = .ok v ↔
    ∃ c, s.cell? ref.id = some c ∧ c.error = none ∧ c.isTable = false ∧ c.value = v := by
  cases hc : s.cell? ref.id with
  | none => simp [context, referenced, hc, bind, Except.bind]
  | some c =>
    simp only [context, referenced, hc, bind, Except.bind, c.read_eq, Option.some.injEq,
      exists_eq_left']
    cases he : c.error with
    | some e => simp [throw, throwThe, MonadExceptOf.throw]
    | none =>
      cases ht : c.isTable <;> simp [throw, throwThe, MonadExceptOf.throw, pure, Except.pure]

theorem isTable_of_element {row col : Nat} (h : s.context.element ref row col = .ok v) :
    ∃ c, s.cell? ref.id = some c ∧ c.isTable = true := by
  cases hc : s.cell? ref.id with
  | none => simp [context, referenced, hc, bind, Except.bind] at h
  | some c =>
    refine ⟨c, rfl, ?_⟩
    cases hg : c.grid? with
    | none => simp [context, referenced, hc, hg, bind, Except.bind, throw, throwThe,
      MonadExceptOf.throw] at h
    | some grid => simp [Cell.isTable, hg]

/-- The names in a tree matter only for error messages. -/
theorem eval_of_anonymous {e e' : Expr} (h : e.anonymous = e'.anonymous)
    (hv : e.eval s.context = .ok v) : e'.eval s.context = .ok v := by
  have hsame : ∀ e : Expr, SameUpTo (fun _ _ => True) (e.anonymous.eval s.context)
      (e.eval s.context) := by
    intro e
    rw [Expr.anonymous, Expr.eval_mapRefs]
    apply e.eval_sameUpTo fun _ => trivial
    intro ref _
    refine ⟨?_, fun row col => ?_⟩
    · simp only [Context.comap, context, referenced]
      cases s.cell? ref.id with
      | none => exact .error trivial
      | some c => exact .refl (fun _ => trivial) _
    · simp only [Context.comap, context, referenced]
      cases s.cell? ref.id with
      | none => exact .error trivial
      | some c => exact .refl (fun _ => trivial) _
  have he := hsame e
  have he' := hsame e'
  rw [hv] at he
  rw [← h] at he'
  generalize e.anonymous.eval s.context = r at he he'
  cases he
  generalize e'.eval s.context = r' at he'
  cases he'
  rfl

/-- What a cell depends on comes before it. -/
theorem Linked.wellFoundedOn (h : s.Linked) :
    {x | x ∈ s.ids}.WellFoundedOn fun a b => TransGen s.Refers b a := by
  have horder : IsStrictOrder CellId fun a b => TransGen s.Refers b a :=
    { irrefl := h.acyclic, trans := fun _ _ _ hab hbc => hbc.trans hab }
  exact s.ids.finite_toSet.wellFoundedOn

/-- A sheet between operations, with no cell in error. -/
structure Healthy (settings : Settings) (s : Sheet) : Prop where
  kept : s.Kept settings
  clean : ∀ c ∈ s.cells, c.error = none

/-- A sheet between operations that has only formula cells, all without error. -/
structure Flawless (s : Sheet) : Prop where
  kept : s.Kept .default
  formulas : ∀ c ∈ s.cells, c.isTable = false
  clean : ∀ c ∈ s.cells, c.error = none

theorem Flawless.healthy (hs : s.Flawless) : s.Healthy .default :=
  ⟨hs.kept, hs.clean⟩

/-- The cell has a tree, which gives the value of the cell. -/
structure Shows (s : Sheet) (c : Cell) (tree : Expr) (v : Value) : Prop where
  grown : c.tree? = some tree
  evaluates : tree.eval s.context = .ok v
  same : c.value.Same v

/-- The formula of a cell compiles to a tree whose cells are the references, and which gives the
value of the cell. -/
structure Formulates (s : Sheet) (c : Cell) (e : Expr) (v : Value) : Prop where
  compiles : compile s.resolver c.formula = .ok e
  evaluates : e.eval s.context = .ok v
  same : c.value.Same v
  refers : ∀ y, s.Refers c.id y ↔ y ∈ e.cells

theorem Formulates.mem_references_iff {e : Expr} (he : s.Formulates c e v)
    (hc : s.cell? c.id = some c) (x : CellId) :
    x ∈ c.references ↔ ∃ ref ∈ e.refs, ref.id = x := by
  rw [Sheet.mem_references_iff hc, ← List.mem_map, ← Expr.cells_eq]
  exact he.refers x

theorem Formulates.references_eq {e : Expr} (he : s.Formulates c e v)
    (hc : s.cell? c.id = some c) : e.references = c.references := by
  apply IdSet.ext
  intro y
  rw [Expr.mem_references, ← he.refers, Sheet.mem_references_iff hc]

theorem Formulates.live {e : Expr} (he : s.Formulates c e v) (indexed : s.Indexed)
    (hr : ref ∈ e.refs) : ∃ b, s.cell? ref.id = some b :=
  mem_ids_iff.mp (indexed.mem_ids (resolve_of_mem_refs he.compiles hr).2)

section Healthy

variable {settings : Settings} (hs : s.Healthy settings)
include hs

theorem Healthy.error (hc : s.cell? x = some c) : c.error = none :=
  hs.clean c (mem_of_cell? hc).1

theorem Healthy.hasError (x : CellId) : s.hasError x = false := by
  cases hc : s.cell? x with
  | none => simp [Sheet.hasError, hc]
  | some c => simp [Sheet.hasError, hc, Cell.hasError, hs.error hc]

theorem Healthy.shows (hc : s.cell? x = some c) (formula : c.isTable = false) :
    ∃ tree v, s.Shows c tree v := by
  have herror := hs.error hc
  have hsane : c.isStructural = false := by simp [Cell.isStructural, herror]
  have hcurrent := ((hs.kept.sound.upToDate x).settled c hc formula).current hsane (by
    rintro y - ⟨b, hb, hk⟩
    simp [Cell.errorKind?, hs.error hb] at hk)
  obtain ⟨tree, ht, hyields⟩ := hcurrent.yields (by
    rintro ⟨y, -, hy⟩
    rw [hs.hasError y] at hy
    cases hy)
  unfold Yields at hyields
  split at hyields
  next v hv => exact ⟨tree, v, ht, hv, hyields.2⟩
  next => simp [Cell.errorKind?, herror] at hyields

theorem Healthy.inPhrase (hc : s.cell? x = some c) {tree : Expr} (ht : c.tree? = some tree) :
    s.InPhrase c tree :=
  hs.kept.phrased x c tree hc ht (hs.kept.grounded x c tree hc (hs.error hc) ht)

theorem Healthy.formulates (hc : s.cell? c.id = some c) (formula : c.isTable = false) :
    ∃ e v, s.Formulates c e v := by
  obtain ⟨tree, v, ht, hv, hsame⟩ := hs.shows hc formula
  obtain ⟨e, he, hanon⟩ := (hs.inPhrase hc ht).compiles
  refine ⟨e, v, he, eval_of_anonymous hanon.symm hv, hsame, fun y => ?_⟩
  rw [← mem_references_iff hc, hs.kept.sound.bound.references c.id c tree hc ht,
    Expr.cells_eq_of_anonymous hanon]
  exact ⟨And.left, fun hy => ⟨hy, hs.kept.grounded c.id c tree hc (hs.error hc) ht y hy⟩⟩

end Healthy

theorem Flawless.formulates (hs : s.Flawless) (hc : s.cell? c.id = some c) :
    ∃ e v, s.Formulates c e v :=
  hs.healthy.formulates hc (hs.formulas c (mem_of_cell? hc).1)

theorem Flawless.mem_deep (hs : s.Flawless) (hc : s.cell? c.id = some c) :
    y ∈ c.deep ↔ TransGen s.Refers c.id y :=
  (hs.kept.sound.upToDate c.id).deep.mem_deep hc

theorem Flawless.acyclic (hs : s.Flawless) (x : CellId) : ¬TransGen s.Refers x x :=
  hs.kept.sound.linked.acyclic x

end Sheet

end LiveSheet
