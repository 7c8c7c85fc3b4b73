import LiveSheet.Formula.Expr
import LiveSheet.Formula.Name
import LiveSheet.Formula.Postfix

namespace LiveSheet

/-- What cell a name stands for. -/
abbrev Resolver := String → Option CellId

def classifyAtom (resolve : Resolver) (s : String) : Except FormulaError Expr :=
  let cs := s.toList
  let first := fun p => cs.head?.any p
  if first (· = '"') then .error (.unterminatedString s)
  else if sameLetters cs "true".toList then .ok (.literal (.boolean true))
  else if sameLetters cs "false".toList then .ok (.literal (.boolean false))
  else if first startsNumber then
    match readFloat? cs with
    | some x => .ok (.literal (.float x))
    | none => .error (.malformed (.invalidNumber s))
  else if !isValidName s then .error (.malformed (.unrecognized s))
  else match resolve s with
    | some id => .ok (.cell ⟨id, s⟩)
    | none => .error (.unknownCell s)

/-- Takes the last `count` operands off the stack, which has its top first, into written order. -/
def popOperands? (stack : List Expr) (count : Nat) : Option (List Expr × List Expr) :=
  if count ≤ stack.length then some ((stack.take count).reverse, stack.drop count) else none

def pushOperator (stack : List Expr) (symbol : String) : Except FormulaError (List Expr) :=
  match Operator.find? symbol, stack with
  | none, _ => .error (.unknownOperator symbol)
  | some (.binary op), r :: l :: rest => .ok (.binary op l r :: rest)
  | some (.unary op), x :: rest => .ok (.unary op x :: rest)
  | some _, _ => .error (.missingOperand symbol)

def pushCall (stack : List Expr) (name : String) (count : Nat) :
    Except FormulaError (List Expr) :=
  match Function.find? name with
  | none => .error (.unknownFunction name)
  | some f =>
    if f.signature.accepts count then
      match popOperands? stack count with
      | some (args, rest) => .ok (.call f args :: rest)
      | none => .error (.missingOperand name)
    else .error (.argumentCount f.signature count)

def pushAccess : List Expr → Except FormulaError (List Expr)
  | col :: row :: .cell table :: rest => .ok (.element table row col :: rest)
  | _ :: _ :: _ :: _ => .error (.malformedAccess .noTableName)
  | _ => .error (.malformedAccess .missingOperand)

def buildFrom (resolve : Resolver) (stack : List Expr) :
    List Token → Except FormulaError (List Expr)
  | [] => .ok stack
  | .function name :: .argCount count :: rest => do
    buildFrom resolve (← pushCall stack name count) rest
  | .function name :: _ => .error (.malformed (.noArgumentCount name))
  | .atom s :: rest => do
    let e ← classifyAtom resolve s
    buildFrom resolve (e :: stack) rest
  | .text s :: rest => buildFrom resolve (.literal (.string s) :: stack) rest
  | .operator symbol :: rest => do buildFrom resolve (← pushOperator stack symbol) rest
  | .tableAccess :: rest => do buildFrom resolve (← pushAccess stack) rest
  | t :: _ => .error (.malformed (.notPostfix t))

def buildTree (resolve : Resolver) (postfixTokens : List Token) : Except FormulaError Expr :=
  match buildFrom resolve [] postfixTokens with
  | .error e => .error e
  | .ok [] => .error (.malformed .emptyFormula)
  | .ok [e] => .ok e
  | .ok _ => .error (.malformed .missingOperator)

def compile (resolve : Resolver) (formula : String) : Except FormulaError Expr := do
  buildTree resolve (← parsePostfix formula)

end LiveSheet
