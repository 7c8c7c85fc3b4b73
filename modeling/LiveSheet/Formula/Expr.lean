import LiveSheet.IdSet
import LiveSheet.Formula.Operator
import LiveSheet.Formula.Function

namespace LiveSheet

/-- A cell as a formula refers to it; the name is the one the formula used. -/
structure CellRef where
  id : CellId
  name : String
  deriving DecidableEq, Repr

inductive Expr
  | literal (value : Value)
  | cell (ref : CellRef)
  | element (table : CellRef) (row col : Expr)
  | unary (op : UnaryOp) (operand : Expr)
  | binary (op : BinaryOp) (left right : Expr)
  | call (function : Function) (args : List Expr)
  deriving Repr

namespace Expr

mutual

/-- Equal trees; operators are told apart by their symbols and functions by their names. Literals
are compared as values, so one that is not a number differs from itself. -/
def beq : Expr → Expr → Bool
  | .literal v, .literal w => v == w
  | .cell a, .cell b => a = b
  | .element a row col, .element b row' col' => a = b && row.beq row' && col.beq col'
  | .unary op x, .unary op' x' => op.symbol = op'.symbol && x.beq x'
  | .binary op l r, .binary op' l' r' =>
    op.symbol = op'.symbol && l.beq l' && r.beq r'
  | .call f args, .call f' args' => f.name = f'.name && beqAll args args'
  | _, _ => false

def beqAll : List Expr → List Expr → Bool
  | [], [] => true
  | x :: xs, y :: ys => x.beq y && beqAll xs ys
  | _, _ => false

end

instance : BEq Expr := ⟨beq⟩

mutual

def cells : Expr → List CellId
  | .literal _ => []
  | .cell ref => [ref.id]
  | .element table row col => table.id :: (row.cells ++ col.cells)
  | .unary _ x => x.cells
  | .binary _ l r => l.cells ++ r.cells
  | .call _ args => cellsAll args

def cellsAll : List Expr → List CellId
  | [] => []
  | x :: xs => x.cells ++ cellsAll xs

end

/-- The cells that the value of a tree depends on. -/
def references (e : Expr) : IdSet :=
  IdSet.ofList e.cells

theorem mem_references {e : Expr} {id : CellId} : id ∈ e.references ↔ id ∈ e.cells :=
  IdSet.mem_ofList

theorem cellsAll_eq (es : List Expr) : cellsAll es = es.flatMap cells := by
  induction es with
  | nil => rfl
  | cons e es ih => simp [cellsAll, ih]

end Expr

end LiveSheet
