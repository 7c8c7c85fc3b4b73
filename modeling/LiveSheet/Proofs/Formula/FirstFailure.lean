import Mathlib.Data.List.Forall2
import LiveSheet.Proofs.Formula.Evaluation

namespace LiveSheet

/-- What can go wrong in an evaluation, one thing at a time: a cell is looked up, the value of a
part is taken as a number or as an index, or a table is read at the indices that two parts stand
for. -/
inductive EvalStep
  | lookup (ref : CellRef)
  | number (part : Expr)
  | index (part : Expr)
  | access (table : CellRef) (row col : Expr)

/-- The logical operators take any value for a truth value. -/
def UnaryOp.isNumeric : UnaryOp → Bool
  | .minus | .plus => true
  | .not => false

def BinaryOp.isNumeric : BinaryOp → Bool
  | .and | .or => false
  | _ => true

namespace Expr

mutual

/-- The steps of an evaluation: from left to right, and those of the parts before those of the
whole. -/
def steps : Expr → List EvalStep
  | .literal _ => []
  | .cell ref => [.lookup ref]
  | .element table row col =>
    row.steps ++ (.index row :: (col.steps ++ [.index col, .access table row col]))
  | .unary op x => x.steps ++ if op.isNumeric then [.number x] else []
  | .binary op l r => l.steps ++ (r.steps ++ if op.isNumeric then [.number l, .number r] else [])
  | .call _ args => stepsAll args ++ args.map .number

def stepsAll : List Expr → List EvalStep
  | [] => []
  | x :: xs => x.steps ++ stepsAll xs

end

/-- A tree stands somewhere in another one, or is the whole of it. -/
inductive PartOf (part : Expr) : Expr → Prop
  | whole : PartOf part part
  | row {table : CellRef} {row col : Expr} (h : PartOf part row) :
    PartOf part (.element table row col)
  | col {table : CellRef} {row col : Expr} (h : PartOf part col) :
    PartOf part (.element table row col)
  | operand {op : UnaryOp} {x : Expr} (h : PartOf part x) : PartOf part (.unary op x)
  | left {op : BinaryOp} {l r : Expr} (h : PartOf part l) : PartOf part (.binary op l r)
  | right {op : BinaryOp} {l r : Expr} (h : PartOf part r) : PartOf part (.binary op l r)
  | arg {f : Function} {args : List Expr} {x : Expr} (mem : x ∈ args) (h : PartOf part x) :
    PartOf part (.call f args)

/-- A tree mentions a cell that has no value, or as a table one that has no elements. -/
inductive MentionsLost (ctx : Context) (e : Expr) : Prop
  | cell {ref : CellRef} {cause : FormulaError} (part : (Expr.cell ref).PartOf e)
    (lost : ctx.value ref = .error cause)
  | table {ref : CellRef} {row col : Expr} (part : (Expr.element ref row col).PartOf e)
    (lost : ∀ i j, ∃ cause, ctx.element ref i j = .error cause)

theorem steps_subset_stepsAll {x : Expr} {es : List Expr} (h : x ∈ es) : x.steps ⊆ stepsAll es := by
  induction es with
  | nil => cases h
  | cons e es ih =>
    rcases List.mem_cons.mp h with rfl | h
    · exact List.subset_append_left _ _
    · exact List.Subset.trans (ih h) (List.subset_append_right _ _)

theorem PartOf.steps_subset {part e : Expr} (h : part.PartOf e) : part.steps ⊆ e.steps := by
  induction h with
  | whole => exact List.Subset.refl _
  | row _ ih => exact List.Subset.trans ih (List.subset_append_left _ _)
  | col _ ih =>
    intro step hstep
    simp [steps, ih hstep]
  | operand _ ih => exact List.Subset.trans ih (List.subset_append_left _ _)
  | left _ ih => exact List.Subset.trans ih (List.subset_append_left _ _)
  | right _ ih =>
    intro step hstep
    simp [steps, ih hstep]
  | arg mem _ ih =>
    exact List.Subset.trans (List.Subset.trans ih (steps_subset_stepsAll mem))
      (List.subset_append_left _ _)

end Expr

variable {ctx : Context} {α β : Type}

namespace EvalStep

/-- How a computation ends, whatever its value is. -/
def ended (x : Except FormulaError α) : Except FormulaError Unit :=
  x.map fun _ => ()

/-- How a step ends by itself; nothing can be said if a part that it works on has no value. -/
def outcome? (ctx : Context) : EvalStep → Option (Except FormulaError Unit)
  | .lookup ref => some (ended (ctx.value ref))
  | .number x => (x.eval ctx).toOption.map fun v => ended (converted v.asFloat)
  | .index x => (x.eval ctx).toOption.map fun v => ended (asIndex v)
  | .access table row col => do
    let i ← (row.eval ctx >>= asIndex).toOption
    let j ← (col.eval ctx >>= asIndex).toOption
    some (ended (ctx.element table i j))

def Succeeds (ctx : Context) (step : EvalStep) : Prop :=
  step.outcome? ctx = some (.ok ())

instance (ctx : Context) (step : EvalStep) : Decidable (step.Succeeds ctx) :=
  inferInstanceAs (Decidable (_ = _))

def Fails (ctx : Context) (step : EvalStep) (cause : FormulaError) : Prop :=
  step.outcome? ctx = some (.error cause)

theorem Fails.not_succeeds {step : EvalStep} {cause : FormulaError} (h : step.Fails ctx cause) :
    ¬step.Succeeds ctx := by
  intro hs
  cases h.symm.trans hs

/-- Some step fails, and all those before it succeed. -/
def FirstFailure (ctx : Context) (steps : List EvalStep) (cause : FormulaError) : Prop :=
  ∃ earlier step later, steps = earlier ++ step :: later ∧
    (∀ s ∈ earlier, s.Succeeds ctx) ∧ step.Fails ctx cause

theorem FirstFailure.exists_fails {steps : List EvalStep} {cause : FormulaError}
    (h : FirstFailure ctx steps cause) : ∃ step ∈ steps, step.Fails ctx cause := by
  obtain ⟨earlier, step, later, rfl, -, hfails⟩ := h
  exact ⟨step, by simp, hfails⟩

theorem FirstFailure.find?_eq {steps : List EvalStep} {cause : FormulaError}
    (h : FirstFailure ctx steps cause) :
    ∃ step, steps.find? (fun s => !decide (s.Succeeds ctx)) = some step ∧ step.Fails ctx cause := by
  obtain ⟨earlier, step, later, rfl, hearlier, hfails⟩ := h
  refine ⟨step, List.find?_eq_some_iff_append.mpr ⟨?_, earlier, later, rfl, fun s hs => ?_⟩, hfails⟩
  · simpa using hfails.not_succeeds
  · simpa using hearlier s hs

theorem FirstFailure.unique {steps : List EvalStep} {cause cause' : FormulaError}
    (h : FirstFailure ctx steps cause) (h' : FirstFailure ctx steps cause') : cause = cause' := by
  obtain ⟨step, hfind, hfails⟩ := h.find?_eq
  obtain ⟨step', hfind', hfails'⟩ := h'.find?_eq
  obtain rfl := Option.some.inj (hfind.symm.trans hfind')
  exact Except.error.inj (Option.some.inj (hfails.symm.trans hfails'))

/-- Doing the steps one after the other comes to the result: all of them succeed if there is one,
and otherwise the first that fails gives the reason. -/
def Trace (ctx : Context) (steps : List EvalStep) : Except FormulaError α → Prop
  | .ok _ => ∀ s ∈ steps, s.Succeeds ctx
  | .error cause => FirstFailure ctx steps cause

namespace Trace

variable {first rest : List EvalStep} {step : EvalStep}

theorem nil {a : α} : Trace ctx [] (.ok a) :=
  fun _ hs => absurd hs List.not_mem_nil

theorem single {x : Except FormulaError α} (h : step.outcome? ctx = some (ended x)) :
    Trace ctx [step] x := by
  cases x with
  | ok a =>
    intro s hs
    obtain rfl := List.mem_singleton.mp hs
    exact h
  | error cause => exact ⟨[], step, [], rfl, fun s hs => absurd hs List.not_mem_nil, h⟩

theorem bind {x : Except FormulaError α} {f : α → Except FormulaError β} (h : Trace ctx first x)
    (next : ∀ a, x = .ok a → Trace ctx rest (f a)) : Trace ctx (first ++ rest) (x >>= f) := by
  cases x with
  | error cause =>
    obtain ⟨earlier, step, later, rfl, hearlier, hfails⟩ := h
    exact ⟨earlier, step, later ++ rest, by simp, hearlier, hfails⟩
  | ok a =>
    have hnext := next a rfl
    change Trace ctx (first ++ rest) (f a)
    cases hf : f a with
    | ok b =>
      rw [hf] at hnext
      intro s hs
      exact (List.mem_append.mp hs).elim (h s) (hnext s)
    | error cause =>
      rw [hf] at hnext
      obtain ⟨earlier, step, later, rfl, hearlier, hfails⟩ := hnext
      refine ⟨first ++ earlier, step, later, by simp, ?_, hfails⟩
      intro s hs
      exact (List.mem_append.mp hs).elim (h s) (hearlier s)

theorem map {x : Except ConversionError α} (f : α → β) (h : Trace ctx first (converted x)) :
    Trace ctx first (converted (f <$> x)) := by
  cases x <;> exact h

/-- There is no result if a step does not succeed. -/
theorem eq_error_of_not_succeeds {x : Except FormulaError α} (h : Trace ctx first x)
    (mem : step ∈ first) (failed : ¬step.Succeeds ctx) : ∃ cause, x = .error cause := by
  cases x with
  | ok a => exact absurd (h step mem) failed
  | error cause => exact ⟨cause, rfl⟩

theorem eq_error_iff {x : Except FormulaError α} {cause : FormulaError} (h : Trace ctx first x) :
    x = .error cause ↔ FirstFailure ctx first cause := by
  constructor
  · rintro rfl
    exact h
  · intro hfirst
    obtain ⟨step, hmem, hfails⟩ := hfirst.exists_fails
    obtain ⟨cause', rfl⟩ := h.eq_error_of_not_succeeds hmem hfails.not_succeeds
    rw [FirstFailure.unique h hfirst]

end Trace

theorem trace_number {x : Expr} {v : Value} (h : x.eval ctx = .ok v) :
    Trace ctx [.number x] (converted v.asFloat) := by
  apply Trace.single
  rw [outcome?, h]
  rfl

theorem trace_index {x : Expr} {v : Value} (h : x.eval ctx = .ok v) :
    Trace ctx [.index x] (asIndex v) := by
  apply Trace.single
  rw [outcome?, h]
  rfl

theorem trace_access (table : CellRef) {row col : Expr} {i j : Nat}
    (hi : row.eval ctx >>= asIndex = .ok i) (hj : col.eval ctx >>= asIndex = .ok j) :
    Trace ctx [.access table row col] (ctx.element table i j) := by
  apply Trace.single
  rw [outcome?, hi, hj]
  rfl

theorem trace_onNumbers {l r : Expr} {v w : Value} (hl : l.eval ctx = .ok v)
    (hr : r.eval ctx = .ok w) (f : Float → Float → α) :
    Trace ctx [.number l, .number r] (converted (onNumbers f v w)) := by
  have hsplit : converted (onNumbers f v w) =
      converted v.asFloat >>= fun x => converted (f x <$> w.asFloat) := by
    unfold onNumbers
    cases v.asFloat with
    | error e => rfl
    | ok x => cases w.asFloat <;> rfl
  rw [hsplit]
  exact (trace_number hl).bind fun x _ => (trace_number hr).map (f x)

theorem trace_unary {op : UnaryOp} {x : Expr} {v : Value} (h : x.eval ctx = .ok v) :
    Trace ctx (if op.isNumeric then [.number x] else []) (converted (op.apply v)) := by
  cases op with
  | minus => exact (trace_number h).map _
  | plus => exact (trace_number h).map _
  | not => exact Trace.nil

theorem trace_binary {op : BinaryOp} {l r : Expr} {v w : Value} (hl : l.eval ctx = .ok v)
    (hr : r.eval ctx = .ok w) : Trace ctx (if op.isNumeric then [.number l, .number r] else [])
      (converted (op.apply v w)) := by
  cases op
  case and => exact Trace.nil
  case or => exact Trace.nil
  all_goals exact (trace_onNumbers hl hr _).map _

theorem trace_numbers {args : List Expr} {vs : List Value}
    (h : List.Forall₂ (fun x v => x.eval ctx = .ok v) args vs) :
    Trace ctx (args.map .number) (converted (vs.mapM Value.asFloat)) := by
  induction h with
  | nil => exact Trace.nil
  | @cons x v args vs hx _ ih =>
    have hsplit : converted ((v :: vs).mapM Value.asFloat) =
        converted v.asFloat >>= fun y => converted ((y :: ·) <$> vs.mapM Value.asFloat) := by
      rw [List.mapM_cons]
      cases v.asFloat with
      | error e => rfl
      | ok y => cases vs.mapM Value.asFloat <;> rfl
    rw [hsplit]
    exact (trace_number hx).bind fun y _ => ih.map _

end EvalStep

namespace Expr

open EvalStep

theorem evalAll_eq_ok {es : List Expr} {vs : List Value} (h : evalAll ctx es = .ok vs) :
    List.Forall₂ (fun x v => x.eval ctx = .ok v) es vs := by
  induction es generalizing vs with
  | nil =>
    cases h
    exact .nil
  | cons e es ih =>
    simp only [evalAll] at h
    obtain ⟨v, hv, h⟩ := Except.of_bind_eq_ok h
    obtain ⟨ws, hws, h⟩ := Except.of_bind_eq_ok h
    cases h
    exact .cons hv (ih hws)

mutual

/-- Evaluating a tree is doing its steps. The steps on the value of a part come after those that
give it, so each of them finds that value. -/
theorem trace_eval (ctx : Context) (e : Expr) : Trace ctx e.steps (e.eval ctx) := by
  cases e with
  | literal v => exact Trace.nil
  | cell ref => exact Trace.single rfl
  | element table row col =>
    simp only [steps, eval]
    apply (trace_eval ctx row).bind
    intro v hv
    apply (trace_index hv).bind
    intro i hi
    apply (trace_eval ctx col).bind
    intro w hw
    apply (trace_index hw).bind
    intro j hj
    apply trace_access table
    · rw [hv]
      exact hi
    · rw [hw]
      exact hj
  | unary op x =>
    simp only [steps, eval]
    exact (trace_eval ctx x).bind fun v hv => trace_unary hv
  | binary op l r =>
    simp only [steps, eval]
    apply (trace_eval ctx l).bind
    intro v hv
    apply (trace_eval ctx r).bind
    intro w hw
    exact trace_binary hv hw
  | call f args =>
    simp only [steps, eval]
    apply (trace_evalAll ctx args).bind
    intro vs hvs
    exact (trace_numbers (evalAll_eq_ok hvs)).map _

theorem trace_evalAll (ctx : Context) (es : List Expr) :
    Trace ctx (stepsAll es) (evalAll ctx es) := by
  cases es with
  | nil => exact Trace.nil
  | cons e es =>
    simp only [stepsAll, evalAll]
    apply (trace_eval ctx e).bind
    intro v _
    rw [← List.append_nil (stepsAll es)]
    exact (trace_evalAll ctx es).bind fun vs _ => Trace.nil

end

theorem MentionsLost.exists_step {e : Expr} (h : e.MentionsLost ctx) :
    ∃ step ∈ e.steps, ¬step.Succeeds ctx := by
  cases h with
  | @cell ref cause part lost =>
    refine ⟨.lookup ref, part.steps_subset (by simp [steps]), ?_⟩
    simp [Succeeds, outcome?, lost, ended, Except.map]
  | @table ref row col part lost =>
    -- whatever the indices are, and if there are none, no element is read
    refine ⟨.access ref row col, part.steps_subset (by simp [steps]), fun hs => ?_⟩
    obtain ⟨i, -, hs⟩ := Option.bind_eq_some_iff.mp hs
    obtain ⟨j, -, hs⟩ := Option.bind_eq_some_iff.mp hs
    obtain ⟨cause, hcause⟩ := lost i j
    rw [hcause] at hs
    cases hs

/-- Evaluation is strict. A tree fails if a part of it does, for the reason of the first step that
fails, and it has no value if it mentions a cell that cannot be looked up. -/
theorem eval_strict (ctx : Context) (e : Expr) :
    (∀ part : Expr, part.PartOf e → ∀ cause, part.eval ctx = .error cause →
      ∃ cause, e.eval ctx = .error cause) ∧
    (∀ cause, e.eval ctx = .error cause ↔ FirstFailure ctx e.steps cause) ∧
    (e.MentionsLost ctx → ∀ v, e.eval ctx ≠ .ok v) := by
  have htrace := trace_eval ctx e
  refine ⟨fun part hpart cause hfailed => ?_, fun cause => htrace.eq_error_iff,
    fun hlost v hv => ?_⟩
  · obtain ⟨step, hmem, hfails⟩ := ((trace_eval ctx part).eq_error_iff.mp hfailed).exists_fails
    exact htrace.eq_error_of_not_succeeds (hpart.steps_subset hmem) hfails.not_succeeds
  · obtain ⟨step, hmem, hfailed⟩ := hlost.exists_step
    obtain ⟨cause, hcause⟩ := htrace.eq_error_of_not_succeeds hmem hfailed
    cases hv.symm.trans hcause

/-- `t[false && a; "x" + b]` where `a` is in error and `t` has no elements. -/
theorem eval_strict_nested :
    let a : CellRef := ⟨⟨1⟩, "a"⟩
    let t : CellRef := ⟨⟨2⟩, "t"⟩
    let left : Expr := .binary .and (.literal (.boolean false)) (.cell a)
    let e : Expr := .element t left (.binary .add (.literal (.string "x")) (.cell ⟨⟨3⟩, "b"⟩))
    let ctx : Context :=
      ⟨fun ref => if ref = a then .error (.dangling "a") else .ok (.boolean true),
        fun ref _ _ => .error (.lookup (.notATable ref.name))⟩
    ((Expr.cell a).PartOf e ∧ (Expr.cell a).eval ctx = .error (.dangling "a") ∧
      e.MentionsLost ctx) ∧
    (∃ cause, e.eval ctx = .error cause) ∧ FirstFailure ctx e.steps (.dangling "a") ∧
      ∀ v, e.eval ctx ≠ .ok v := by
  intro a t left e ctx
  have hpart : (Expr.cell a).PartOf e := .row (.right .whole)
  have hlost : e.MentionsLost ctx := .table .whole fun i j => ⟨_, rfl⟩
  obtain ⟨hparts, hfirst, hmentions⟩ := eval_strict ctx e
  exact ⟨⟨hpart, rfl, hlost⟩, hparts _ hpart (.dangling "a") rfl, (hfirst _).mp rfl,
    hmentions hlost⟩

end Expr

end LiveSheet
