import LiveSheet.Value

namespace LiveSheet

inductive UnaryOp
  | minus
  | plus
  | not
  deriving DecidableEq, Repr

inductive BinaryOp
  | add
  | subtract
  | multiply
  | divide
  | less
  | lessEqual
  | greater
  | greaterEqual
  | equal
  | notEqual
  | and
  | or
  deriving DecidableEq, Repr

inductive Operator
  | binary (op : BinaryOp)
  | unary (op : UnaryOp)
  deriving DecidableEq, Repr

/-- A prefixed minus or plus has a symbol of its own, unlike the one between operands. -/
def UnaryOp.symbol : UnaryOp → String
  | .minus => "u-"
  | .plus => "u+"
  | .not => "!"

def UnaryOp.written : UnaryOp → String
  | .minus => "-"
  | .plus => "+"
  | .not => "!"

def BinaryOp.symbol : BinaryOp → String
  | .add => "+"
  | .subtract => "-"
  | .multiply => "*"
  | .divide => "/"
  | .less => "<"
  | .lessEqual => "<="
  | .greater => ">"
  | .greaterEqual => ">="
  | .equal => "="
  | .notEqual => "<>"
  | .and => "&&"
  | .or => "||"

def BinaryOp.precedence : BinaryOp → Nat
  | .and | .or => 0
  | .less | .lessEqual | .greater | .greaterEqual | .equal | .notEqual => 1
  | .add | .subtract => 2
  | .multiply | .divide => 3

namespace Operator

def symbol : Operator → String
  | .binary op => op.symbol
  | .unary op => op.symbol

def arity : Operator → Nat
  | .binary _ => 2
  | .unary _ => 1

/-- Operators of a higher class bind tighter; those before an operand bind tightest. -/
def precedence : Operator → Nat
  | .binary op => op.precedence
  | .unary _ => 4

def isRightAssociative : Operator → Bool
  | .binary _ => false
  | .unary _ => true

def isUnary (op : Operator) : Bool :=
  op.arity == 1

def all : List Operator :=
  [.binary .add, .binary .subtract, .binary .multiply, .binary .divide, .binary .less,
    .binary .lessEqual, .binary .greater, .binary .greaterEqual, .binary .equal,
    .binary .notEqual, .binary .and, .binary .or, .unary .minus, .unary .plus, .unary .not]

def find? (symbol : String) : Option Operator :=
  all.find? fun op => op.symbol == symbol

theorem find?_symbol (op : Operator) : find? op.symbol = some op := by
  rcases op with op | op <;> cases op <;> decide

theorem symbol_of_find? {symbol : String} {op : Operator} (h : find? symbol = some op) :
    op.symbol = symbol := by
  simpa using List.find?_some h

/-- Whether an operator waiting for its right operand is complete when `incoming` follows. -/
def popsBefore (waiting incoming : Operator) : Bool :=
  incoming.precedence < waiting.precedence ||
    (waiting.precedence == incoming.precedence && !incoming.isRightAssociative)

/-- The symbol of the operator that `symbol` means where an operand is expected. -/
def prefixForm? (symbol : String) : Option String :=
  if symbol = "-" then some UnaryOp.minus.symbol
  else if symbol = "+" then some UnaryOp.plus.symbol
  else if symbol = "!" then some UnaryOp.not.symbol
  else none

theorem prefixForm?_eq_some_iff {symbol meant : String} :
    prefixForm? symbol = some meant ↔ ∃ op : UnaryOp, symbol = op.written ∧ meant = op.symbol := by
  unfold prefixForm?
  constructor
  · intro h
    split at h
    next hs => exact ⟨.minus, hs, (Option.some.inj h).symm⟩
    next =>
      split at h
      next hs => exact ⟨.plus, hs, (Option.some.inj h).symm⟩
      next =>
        split at h
        next hs => exact ⟨.not, hs, (Option.some.inj h).symm⟩
        next => cases h
  · rintro ⟨op, rfl, rfl⟩
    cases op <;> decide

end Operator

def onNumbers {α : Type} (f : Float → Float → α) (l r : Value) : Except ConversionError α := do
  let x ← l.asFloat
  let y ← r.asFloat
  return f x y

def BinaryOp.apply (op : BinaryOp) (l r : Value) : Except ConversionError Value :=
  match op with
  | .add => .float <$> onNumbers (· + ·) l r
  | .subtract => .float <$> onNumbers (· - ·) l r
  | .multiply => .float <$> onNumbers (· * ·) l r
  | .divide => .float <$> onNumbers (· / ·) l r
  | .less => .boolean <$> onNumbers (fun x y => decide (x < y)) l r
  | .lessEqual => .boolean <$> onNumbers (fun x y => decide (x ≤ y)) l r
  | .greater => .boolean <$> onNumbers (fun x y => decide (y < x)) l r
  | .greaterEqual => .boolean <$> onNumbers (fun x y => decide (y ≤ x)) l r
  | .equal => .boolean <$> onNumbers (· == ·) l r
  | .notEqual => .boolean <$> onNumbers (· != ·) l r
  | .and => .ok (.boolean (l.asBool && r.asBool))
  | .or => .ok (.boolean (l.asBool || r.asBool))

def UnaryOp.apply (op : UnaryOp) (x : Value) : Except ConversionError Value :=
  match op with
  | .minus => (fun y => .float (-y)) <$> x.asFloat
  | .plus => .float <$> x.asFloat
  | .not => .ok (.boolean !x.asBool)

def Operator.apply? : Operator → List Value → Option (Except ConversionError Value)
  | .binary op, [l, r] => some (op.apply l r)
  | .unary op, [x] => some (op.apply x)
  | _, _ => none

end LiveSheet
