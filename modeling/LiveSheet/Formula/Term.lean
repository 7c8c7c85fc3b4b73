import LiveSheet.Formula.Compile

namespace LiveSheet

/-- A formula as it is put together, before anything is looked up by name. -/
inductive Term
  | atom (text : String)
  | text (content : String)
  | unary (op : UnaryOp) (operand : Term)
  | binary (op : BinaryOp) (left right : Term)
  | call (name : String) (args : List Term)
  | access (table row col : Term)
  deriving Repr

namespace Term

mutual

/-- The tokens of a term, each operator, function and access behind its parts. -/
def postfixTokens : Term → List Token
  | .atom s => [.atom s]
  | .text s => [.text s]
  | .unary op t => t.postfixTokens ++ [.operator op.symbol]
  | .binary op l r => l.postfixTokens ++ r.postfixTokens ++ [.operator op.symbol]
  | .call name args => postfixAll args ++ [.function name, .argCount args.length]
  | .access t row col =>
    t.postfixTokens ++ row.postfixTokens ++ col.postfixTokens ++ [.tableAccess]

def postfixAll : List Term → List Token
  | [] => []
  | t :: ts => t.postfixTokens ++ postfixAll ts

end

def applied? (name : String) (args : List Expr) : Option Expr :=
  match Function.find? name with
  | some f => if f.signature.accepts args.length then some (.call f args) else none
  | none => none

def element? (table row col : Expr) : Option Expr :=
  match table with
  | .cell ref => some (.element ref row col)
  | _ => none

mutual

/-- The tree of a term whose atoms and functions all mean something. -/
def tree? (resolve : Resolver) : Term → Option Expr
  | .atom s => (classifyAtom resolve s).toOption
  | .text s => some (.literal (.string s))
  | .unary op t => (t.tree? resolve).map (.unary op)
  | .binary op l r => do return .binary op (← l.tree? resolve) (← r.tree? resolve)
  | .call name args => do applied? name (← treeAll? resolve args)
  | .access t row col => do
    element? (← t.tree? resolve) (← row.tree? resolve) (← col.tree? resolve)

def treeAll? (resolve : Resolver) : List Term → Option (List Expr)
  | [] => some []
  | t :: ts => do return (← t.tree? resolve) :: (← treeAll? resolve ts)

end

end Term

end LiveSheet
