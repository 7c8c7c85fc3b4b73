import LiveSheet.Formula.Compile

namespace LiveSheet

/-- What a tree finds when it looks at cells. -/
structure Context where
  value : CellRef → Except FormulaError Value
  element : CellRef → Nat → Nat → Except FormulaError Value

def converted {α : Type} : Except ConversionError α → Except FormulaError α
  | .ok x => .ok x
  | .error e => .error (.conversion e)

def asIndex (v : Value) : Except FormulaError Nat :=
  match v.asInteger with
  | .error e => .error (.conversion e)
  | .ok n => if 0 ≤ n.toInt then .ok n.toInt.toNat else .error (.index (.negative n.toInt))

namespace Expr

mutual

/-- The value of a tree. Every part is evaluated, from left to right, and the first failure is the
result. -/
def eval (ctx : Context) : Expr → Except FormulaError Value
  | .literal v => .ok v
  | .cell ref => ctx.value ref
  | .element table row col => do
    let row ← asIndex (← row.eval ctx)
    let col ← asIndex (← col.eval ctx)
    ctx.element table row col
  | .unary op x => do
    let v ← x.eval ctx
    converted (op.apply v)
  | .binary op l r => do
    let v ← l.eval ctx
    let w ← r.eval ctx
    converted (op.apply v w)
  | .call f args => do
    let vs ← evalAll ctx args
    converted (f.apply vs)

def evalAll (ctx : Context) : List Expr → Except FormulaError (List Value)
  | [] => .ok []
  | e :: es => do
    let v ← e.eval ctx
    let vs ← evalAll ctx es
    return v :: vs

end

end Expr

end LiveSheet
