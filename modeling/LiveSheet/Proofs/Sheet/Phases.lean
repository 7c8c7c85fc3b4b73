import LiveSheet.Formula.Bindings
import LiveSheet.Proofs.Formula.Arity
import LiveSheet.Proofs.Formula.FirstFailure
import LiveSheet.Proofs.Sheet.Legible

namespace LiveSheet

variable {α β : Type} {cause : FormulaError}

section Reading

variable {resolve : Resolver} {tokens : List Token}

theorem Refused.isDefinition (h : Refused resolve cause) : cause.isDefinition = true := by
  cases h <;> rfl

/-- No token is too odd to be refused for what it is. -/
theorem InfixReader.step_isDefinition {r : InfixReader} {t : Token} (h : r.step t = .error cause) :
    cause.isDefinition = true := by
  by_cases written : t.Written
  · have hrefused : Refused (fun _ => none) cause := step_refused written h
    exact hrefused.isDefinition
  · cases t with
    | function | argCount | tableAccess =>
      cases h
      rfl
    | _ => exact absurd trivial written

theorem toPostfix_isDefinition (h : toPostfix tokens = .error cause) :
    cause.isDefinition = true := by
  rw [toPostfix_eq] at h
  split at h
  next =>
    have hrefused : Refused (fun _ => none) cause := InfixReader.finish_refused h
    exact hrefused.isDefinition
  next cause' hrun =>
    cases h
    obtain ⟨t, -, r, hstep⟩ := InfixReader.run_eq_error hrun
    exact InfixReader.step_isDefinition hstep

end Reading

section Evaluating

variable {ctx : Context} {v : Value}

/-- What cannot be looked up is never the fault of the text. -/
structure Context.Blameless (ctx : Context) : Prop where
  value : ∀ ref cause, ctx.value ref = .error cause → cause.isDefinition = false
  element : ∀ ref row col cause, ctx.element ref row col = .error cause →
    cause.isDefinition = false

theorem ofData_isDefinition (e : DataError) : (FormulaError.ofData e).isDefinition = false := by
  cases e <;> rfl

theorem converted_isDefinition {x : Except ConversionError α} (h : converted x = .error cause) :
    cause.isDefinition = false := by
  cases x <;> cases h
  rfl

theorem asIndex_isDefinition (h : asIndex v = .error cause) : cause.isDefinition = false := by
  unfold asIndex at h
  split at h
  next =>
    cases h
    rfl
  next =>
    split_ifs at h
    cases h
    rfl

theorem EvalStep.eq_error_of_ended {x : Except FormulaError α} (h : ended x = .error cause) :
    x = .error cause := by
  cases x with
  | ok a => cases h
  | error e => exact congrArg Except.error (Except.error.inj h)

/-- Whatever step of an evaluation fails, the text is not at fault. -/
theorem EvalStep.Fails.isDefinition {step : EvalStep} (h : step.Fails ctx cause)
    (blameless : ctx.Blameless) : cause.isDefinition = false := by
  cases step with
  | lookup ref => exact blameless.value ref cause (eq_error_of_ended (Option.some.inj h))
  | number x =>
    obtain ⟨v, -, hv⟩ := Option.map_eq_some_iff.mp h
    exact converted_isDefinition (eq_error_of_ended hv)
  | index x =>
    obtain ⟨v, -, hv⟩ := Option.map_eq_some_iff.mp h
    exact asIndex_isDefinition (eq_error_of_ended hv)
  | access table row col =>
    obtain ⟨i, -, h⟩ := Option.bind_eq_some_iff.mp h
    obtain ⟨j, -, h⟩ := Option.bind_eq_some_iff.mp h
    exact blameless.element table i j cause (eq_error_of_ended (Option.some.inj h))

theorem Expr.eval_isDefinition (blameless : ctx.Blameless) {e : Expr}
    (h : e.eval ctx = .error cause) : cause.isDefinition = false := by
  obtain ⟨step, -, hfails⟩ := ((trace_eval ctx e).eq_error_iff.mp h).exists_fails
  exact hfails.isDefinition blameless

namespace Attempt

/-- If the computation fails, the text is not at fault. -/
def Blameless (m : Attempt α) : Prop :=
  ∀ cause, m.run = some (.error cause) → cause.isDefinition = false

theorem Blameless.settled {x : Except FormulaError α}
    (h : ∀ cause, x = .error cause → cause.isDefinition = false) : (settled x).Blameless :=
  fun cause hx => h cause (Option.some.inj hx)

theorem Blameless.value (a : α) : (Attempt.settled (.ok a)).Blameless :=
  .settled fun _ => nofun

theorem Blameless.applied (x : Option (Except ConversionError α)) : (applied x).Blameless := by
  intro cause h
  obtain ⟨y, -, hy⟩ := Option.map_eq_some_iff.mp h
  exact converted_isDefinition hy

theorem Blameless.bind {m : Attempt α} {f : α → Attempt β} (h : m.Blameless)
    (hf : ∀ a, (f a).Blameless) : (m >>= f).Blameless := by
  intro cause he
  rw [ExceptT.run_bind] at he
  obtain ⟨x, hx, he⟩ := Option.bind_eq_some_iff.mp he
  cases x with
  | ok a => exact hf a cause he
  | error e =>
    obtain rfl : e = cause := Except.error.inj (Option.some.inj he)
    exact h e hx

end Attempt

namespace Loose

mutual

theorem eval_blameless (blameless : ctx.Blameless) (t : Loose) : (t.eval ctx).Blameless := by
  cases t with
  | literal v => exact .value v
  | cell ref => exact .settled (blameless.value ref)
  | element table row col =>
    apply (eval_blameless blameless row).bind
    intro v
    apply (Attempt.Blameless.settled fun _ => asIndex_isDefinition).bind
    intro i
    apply (eval_blameless blameless col).bind
    intro w
    apply (Attempt.Blameless.settled fun _ => asIndex_isDefinition).bind
    intro j
    exact .settled (blameless.element table i j)
  | operator op operands =>
    apply (evalAll_blameless blameless operands).bind
    intro vs
    exact .applied (op.read? vs)
  | call f args =>
    apply (evalAll_blameless blameless args).bind
    intro vs
    exact .applied (f.call? vs)

theorem evalAll_blameless (blameless : ctx.Blameless) (ts : List Loose) :
    (evalAll ctx ts).Blameless := by
  cases ts with
  | nil => exact .value []
  | cons t ts =>
    apply (eval_blameless blameless t).bind
    intro v
    apply (evalAll_blameless blameless ts).bind
    intro vs
    exact .value (v :: vs)

end

end Loose

theorem Bindings.context_blameless (b : Bindings) : b.context.Blameless := by
  refine ⟨fun ref cause h => ?_, fun ref row col cause h => ?_⟩
  · change b.value ref = _ at h
    unfold Bindings.value at h
    split at h <;> cases h
    rfl
  · change b.element ref row col = _ at h
    unfold Bindings.element at h
    split at h
    next =>
      split at h <;> cases h
      exact ofData_isDefinition _
    next =>
      cases h
      rfl

theorem Sheet.context_blameless (s : Sheet) : s.context.Blameless := by
  refine ⟨fun ref cause h => ?_, fun ref row col cause h => ?_⟩
  · rcases Except.of_bind_eq_error h with h | ⟨c, -, h⟩
    · rw [referenced_eq_error h]
      rfl
    · split at h <;> cases h
      rfl
  · rcases Except.of_bind_eq_error h with h | ⟨c, -, h⟩
    · rw [referenced_eq_error h]
      rfl
    · split at h
      next =>
        cases h
        rfl
      next =>
        split at h <;> cases h
        exact ofData_isDefinition _

end Evaluating

/-- Errors tell the phases apart. If tokens or a formula cannot be read or built, the text is at
fault, whatever it is. If a tree has no value, however it came about, the text is not at fault,
neither where names are bound to values nor among the cells of a sheet, and nor is it when a table
or a conversion is the cause. -/
theorem isDefinition_tells_phase :
    ((∀ tokens cause, toPostfix tokens = .error cause → cause.isDefinition = true) ∧
      (∀ formula cause, parsePostfix formula = .error cause → cause.isDefinition = true) ∧
      (∀ resolve tokens cause, buildTree resolve tokens = .error cause →
        cause.isDefinition = true) ∧
      ∀ resolve formula cause, compile resolve formula = .error cause →
        cause.isDefinition = true) ∧
    (∀ e : DataError, (FormulaError.ofData e).isDefinition = false) ∧
    ∀ ctx : Context, (∃ b : Bindings, ctx = b.context) ∨ (∃ s : Sheet, ctx = s.context) →
      (∀ (tree : Expr) cause, tree.eval ctx = .error cause → cause.isDefinition = false) ∧
        ∀ (tree : Loose) cause, (tree.eval ctx).run = some (.error cause) →
          cause.isDefinition = false := by
  refine ⟨⟨fun _ _ => toPostfix_isDefinition, fun _ _ => toPostfix_isDefinition,
    fun _ _ _ h => (buildTree_refused h).isDefinition,
    fun _ _ _ h => (compile_refused h).isDefinition⟩, ofData_isDefinition, fun ctx hctx => ?_⟩
  have hblameless : ctx.Blameless := by
    rcases hctx with ⟨b, rfl⟩ | ⟨s, rfl⟩
    · exact b.context_blameless
    · exact s.context_blameless
  exact ⟨fun _ _ => Expr.eval_isDefinition hblameless, fun t => Loose.eval_blameless hblameless t⟩

/-- A name of no cell is the fault of the text, and an index below zero is not. -/
theorem isDefinition_tells_phase_negative :
    let tree : Expr := .element ⟨⟨1⟩, "t"⟩ (.literal (.integer (-1))) (.literal (.integer 0))
    (compile (fun _ => none) "a" = .error (.unknownCell "a") ∧
      (FormulaError.unknownCell "a").isDefinition = true) ∧
    tree.eval (Sheet.new .default).context = .error (.index (.negative (-1))) ∧
      (FormulaError.index (.negative (-1))).isDefinition = false := by
  intro tree
  have hbuilding : compile (fun _ => none) "a" = .error (.unknownCell "a") :=
    compile_unknown (parsePostfix_of_isValidName (by decide +kernel)) (by decide +kernel) rfl
  have hevaluating : tree.eval (Sheet.new .default).context = .error (.index (.negative (-1))) := by
    cbv
  obtain ⟨⟨-, -, -, hcompile⟩, -, heval⟩ := isDefinition_tells_phase
  exact ⟨⟨hbuilding, hcompile _ _ _ hbuilding⟩, hevaluating,
    (heval _ (.inr ⟨_, rfl⟩)).1 _ _ hevaluating⟩

end LiveSheet
