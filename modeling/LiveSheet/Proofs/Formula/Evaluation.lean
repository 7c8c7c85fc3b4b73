import LiveSheet.Formula.Eval
import LiveSheet.Proofs.Formula.Building

namespace LiveSheet

/-- The same value, or errors that are alike. -/
inductive SameUpTo (Alike : FormulaError → FormulaError → Prop) {α : Type} :
    Except FormulaError α → Except FormulaError α → Prop
  | ok (a : α) : SameUpTo Alike (.ok a) (.ok a)
  | error {e e' : FormulaError} (h : Alike e e') : SameUpTo Alike (.error e) (.error e')

namespace SameUpTo

variable {Alike : FormulaError → FormulaError → Prop} {α β : Type}

theorem refl (reflexive : ∀ e, Alike e e) (x : Except FormulaError α) : SameUpTo Alike x x := by
  cases x with
  | ok a => exact .ok a
  | error e => exact .error (reflexive e)

theorem bind {x y : Except FormulaError α} {f g : α → Except FormulaError β}
    (h : SameUpTo Alike x y) (hf : ∀ a, SameUpTo Alike (f a) (g a)) :
    SameUpTo Alike (x >>= f) (y >>= g) := by
  cases h with
  | ok a => exact hf a
  | error h => exact .error h

theorem eq {x y : Except FormulaError α} (h : SameUpTo (· = ·) x y) : x = y := by
  cases h with
  | ok a => rfl
  | error h => rw [h]

end SameUpTo

/-- Both contexts find the same in the cell that a reference names. -/
structure Context.AgreeOn (Alike : FormulaError → FormulaError → Prop) (ctx ctx' : Context)
    (ref : CellRef) : Prop where
  value : SameUpTo Alike (ctx.value ref) (ctx'.value ref)
  element : ∀ row col, SameUpTo Alike (ctx.element ref row col) (ctx'.element ref row col)

namespace Expr

variable {Alike : FormulaError → FormulaError → Prop} {ctx ctx' : Context}

mutual

/-- A tree has the same value in contexts that agree on its references. -/
theorem eval_sameUpTo (reflexive : ∀ e, Alike e e) (e : Expr)
    (agree : ∀ ref ∈ e.refs, ctx.AgreeOn Alike ctx' ref) :
    SameUpTo Alike (e.eval ctx) (e.eval ctx') := by
  cases e with
  | literal v => exact .refl reflexive _
  | cell ref => exact (agree ref (by simp [refs])).value
  | element table row col =>
    simp only [refs, List.mem_cons, List.mem_append] at agree
    simp only [eval]
    apply (eval_sameUpTo reflexive row fun ref h => agree ref (.inr (.inl h))).bind
    intro v
    apply (SameUpTo.refl reflexive _).bind
    intro i
    apply (eval_sameUpTo reflexive col fun ref h => agree ref (.inr (.inr h))).bind
    intro w
    apply (SameUpTo.refl reflexive _).bind
    intro j
    exact (agree table (.inl rfl)).element i j
  | unary op x =>
    simp only [eval]
    apply (eval_sameUpTo reflexive x agree).bind
    intro v
    exact .refl reflexive _
  | binary op l r =>
    simp only [refs, List.mem_append] at agree
    simp only [eval]
    apply (eval_sameUpTo reflexive l fun ref h => agree ref (.inl h)).bind
    intro v
    apply (eval_sameUpTo reflexive r fun ref h => agree ref (.inr h)).bind
    intro w
    exact .refl reflexive _
  | call f args =>
    simp only [eval]
    apply (evalAll_sameUpTo reflexive args agree).bind
    intro vs
    exact .refl reflexive _

theorem evalAll_sameUpTo (reflexive : ∀ e, Alike e e) (es : List Expr)
    (agree : ∀ ref ∈ refsAll es, ctx.AgreeOn Alike ctx' ref) :
    SameUpTo Alike (evalAll ctx es) (evalAll ctx' es) := by
  cases es with
  | nil => exact .ok []
  | cons e es =>
    simp only [refsAll, List.mem_append] at agree
    simp only [evalAll]
    apply (eval_sameUpTo reflexive e fun ref h => agree ref (.inl h)).bind
    intro v
    apply (evalAll_sameUpTo reflexive es fun ref h => agree ref (.inr h)).bind
    intro vs
    exact .refl reflexive _

end

end Expr

end LiveSheet
