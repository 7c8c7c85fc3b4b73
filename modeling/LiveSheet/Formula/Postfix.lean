import LiveSheet.Formula.Error
import LiveSheet.Formula.Lexeme
import LiveSheet.Formula.Operator

namespace LiveSheet

/-- An entry of the stack: an operator that waits for its right operand, or what has been opened. -/
inductive Stacked
  | operator (op : Operator)
  | openParen
  | openBracket
  | function (name : String)
  deriving DecidableEq, Repr

/-- What an open sign belongs to. -/
inductive FrameKind
  | group
  | call
  | table
  deriving DecidableEq, Repr

/-- What is known of the arguments behind an open sign. -/
structure Frame where
  kind : FrameKind
  separators : Nat
  hasArgs : Bool
  deriving DecidableEq, Repr

def Frame.opened (kind : FrameKind) : Frame :=
  ⟨kind, 0, false⟩

def Frame.argCount (f : Frame) : Nat :=
  if f.hasArgs then f.separators + 1 else 0

def operatorTokens (ops : List Operator) : List Token :=
  ops.map fun op => .operator op.symbol

/-- A stack from the top up to the first entry that is not such an operator, and from there on. -/
def unstack (completes : Operator → Bool) : List Stacked → List Operator × List Stacked
  | .operator op :: rest =>
    if completes op then
      let (ops, rest) := unstack completes rest
      (op :: ops, rest)
    else ([], .operator op :: rest)
  | stack => ([], stack)

/-- A formula read up to some token: its postfix form so far, the stack and the frames from the top,
and whether the last token completed an operand. -/
structure ShuntingYard where
  output : List Token
  stack : List Stacked
  frames : List Frame
  afterOperand : Bool
  deriving DecidableEq, Repr

namespace ShuntingYard

def start : ShuntingYard :=
  ⟨[], [], [], false⟩

def markArgument (y : ShuntingYard) : ShuntingYard :=
  { y with frames := y.frames.modifyHead fun f => { f with hasArgs := true } }

def operand (y : ShuntingYard) (t : Token) : ShuntingYard :=
  { y.markArgument with output := y.output ++ [t], afterOperand := true }

/-- Moves operators from the top of the stack to the output. -/
def emit (y : ShuntingYard) (completes : Operator → Bool) : ShuntingYard :=
  let (ops, stack) := unstack completes y.stack
  { y with output := y.output ++ operatorTokens ops, stack := stack }

/-- Moves all operators down to the nearest open sign to the output. -/
def drain (y : ShuntingYard) : ShuntingYard :=
  y.emit fun _ => true

/-- An operator where an operand is expected stands before its operand. The waiting operators that
it completes go out first. -/
def operator (y : ShuntingYard) (symbol : String) : Except FormulaError ShuntingYard :=
  let meant := if y.afterOperand then symbol else (Operator.prefixForm? symbol).getD symbol
  match Operator.find? meant with
  | none => .error (.unknownOperator meant)
  | some op =>
    let y := (y.emit (·.popsBefore op)).markArgument
    .ok { y with stack := .operator op :: y.stack, afterOperand := false }

def openSign (y : ShuntingYard) (entries : List Stacked) (kind : FrameKind) : ShuntingYard :=
  { y with stack := entries ++ y.stack, frames := .opened kind :: y.frames, afterOperand := false }

def openGroup (y : ShuntingYard) : ShuntingYard :=
  y.markArgument.openSign [.openParen] .group

def openCall (y : ShuntingYard) (name : String) : ShuntingYard :=
  y.markArgument.openSign [.openParen, .function name] .call

def openBracket (y : ShuntingYard) : Except FormulaError ShuntingYard :=
  if y.afterOperand then .ok (y.openSign [.openBracket] .table)
  else .error (.malformedAccess .noTableName)

/-- What is behind a closed parenthesis. Under that of a call the name of the function is taken to
stand; whatever does stand there is gone. -/
def closed (y : ShuntingYard) (frame : Frame) (stack : List Stacked) (frames : List Frame) :
    Except FormulaError ShuntingYard :=
  match frame.kind with
  | .call =>
    let call := match stack with
      | .function name :: _ => [Token.function name, .argCount frame.argCount]
      | _ => []
    .ok ⟨y.output ++ call, stack.tail, frames, true⟩
  | .group =>
    if frame.hasArgs then .ok ⟨y.output, stack, frames, true⟩
    else .error (.malformed .emptyParens)
  | .table => .ok ⟨y.output, stack, frames, true⟩

def closeParen (y : ShuntingYard) : Except FormulaError ShuntingYard :=
  match y.drain.stack, y.frames with
  | .openParen :: stack, frame :: frames =>
    if frame.hasArgs && !y.afterOperand then .error (.malformed .missingBeforeParen)
    else y.drain.closed frame stack frames
  | .openBracket :: _, _ => .error (.malformed .parenClosesBracket)
  | _, _ => .error (.malformed .unmatchedParen)

def separator (y : ShuntingYard) : Except FormulaError ShuntingYard :=
  if !y.afterOperand then .error (.malformed .missingBeforeSeparator)
  else match y.drain.stack, y.frames with
    | .openParen :: _, frame :: frames | .openBracket :: _, frame :: frames =>
      if frame.kind = .group then .error (.malformed .straySeparator)
      else .ok { y.drain with
        frames := { frame with separators := frame.separators + 1 } :: frames
        afterOperand := false }
    | _, _ => .error (.malformed .straySeparator)

def closeBracket (y : ShuntingYard) : Except FormulaError ShuntingYard :=
  match y.drain.stack, y.frames with
  | .openBracket :: stack, frame :: frames =>
    if frame.argCount = 2 && y.afterOperand then
      .ok ⟨y.drain.output ++ [.tableAccess], stack, frames, true⟩
    else .error (.malformedAccess .notTwoIndices)
  | _, _ => .error (.malformedAccess .unmatchedBracket)

/-- Reads one token that is no function name of a call. -/
def step (y : ShuntingYard) (t : Token) : Except FormulaError ShuntingYard :=
  match t with
  | .atom _ | .text _ => .ok (y.operand t)
  | .operator symbol => y.operator symbol
  | .openParen => .ok y.openGroup
  | .closeParen => y.closeParen
  | .separator => y.separator
  | .openBracket => y.openBracket
  | .closeBracket => y.closeBracket
  | .function _ | .argCount _ | .tableAccess => .error (.malformed (.notInfix t))

/-- Reads tokens to the end; an atom right before a parenthesis is the name of a function. -/
def run (y : ShuntingYard) : List Token → Except FormulaError ShuntingYard
  | [] => .ok y
  | .atom name :: .openParen :: rest => (y.openCall name).run rest
  | t :: rest =>
    match y.step t with
    | .ok y => y.run rest
    | .error e => .error e

/-- Empties the stack. No open sign may be left on it. -/
def unwind (output : List Token) : List Stacked → Except FormulaError (List Token)
  | [] => .ok output
  | .operator op :: rest => unwind (output ++ [.operator op.symbol]) rest
  | .openParen :: _ | .function _ :: _ => .error (.malformed .unclosedParen)
  | .openBracket :: _ => .error (.malformedAccess .unclosedBracket)

def finish (y : ShuntingYard) : Except FormulaError (List Token) :=
  unwind y.output y.stack

end ShuntingYard

/-- The tokens in postfix order: every operator behind its operands, every function with its
argument count behind its arguments, every table access behind the table and both indices. -/
def toPostfix (tokens : List Token) : Except FormulaError (List Token) :=
  match ShuntingYard.start.run tokens with
  | .ok y => y.finish
  | .error e => .error e

def parsePostfix (formula : String) : Except FormulaError (List Token) :=
  toPostfix (tokenize formula)

end LiveSheet
