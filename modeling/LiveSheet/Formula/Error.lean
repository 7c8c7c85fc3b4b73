import LiveSheet.Grid
import LiveSheet.Formula.Token
import LiveSheet.Formula.Signature

namespace LiveSheet

/-- A formula that is not put together as formulas are. -/
inductive SyntaxFault
  | notInfix (token : Token)
  | notPostfix (token : Token)
  | unmatchedParen
  | parenClosesBracket
  | unclosedParen
  | emptyParens
  | missingBeforeParen
  | missingBeforeSeparator
  | straySeparator
  | noArgumentCount (name : String)
  | emptyFormula
  | missingOperator
  | invalidNumber (text : String)
  | unrecognized (text : String)
  deriving DecidableEq, Repr

def SyntaxFault.message : SyntaxFault → String
  | .notInfix token => s!"Unexpected token in infix input: {token.display}"
  | .notPostfix token => s!"Unexpected token: {token.display}"
  | .unmatchedParen => "Unmatched ')'"
  | .parenClosesBracket => "')' closes an open '['"
  | .unclosedParen => "Unclosed '('"
  | .emptyParens => "Empty parentheses"
  | .missingBeforeParen => "Missing expression before ')'"
  | .missingBeforeSeparator => "Missing expression before ';'"
  | .straySeparator => "';' outside of an argument list"
  | .noArgumentCount name => s!"Missing argument count after {name}"
  | .emptyFormula => "Empty formula"
  | .missingOperator => "Missing operator between operands"
  | .invalidNumber text => s!"Invalid number: {text}"
  | .unrecognized text => s!"Unrecognized token: {text}"

/-- A table access not of the form `name[row;column]`. -/
inductive AccessFault
  | noTableName
  | unmatchedBracket
  | unclosedBracket
  | notTwoIndices
  | missingOperand
  deriving DecidableEq, Repr

def AccessFault.message : AccessFault → String
  | .noTableName => "'[' must follow a table name"
  | .unmatchedBracket => "Unmatched ']'"
  | .unclosedBracket => "Unclosed '['"
  | .notTwoIndices => "expected [row;column]"
  | .missingOperand => "missing operand"

inductive LookupFault
  | noValue (name : String)
  | notATable (name : String)
  | failed (name reason : String)
  deriving DecidableEq, Repr

def LookupFault.message : LookupFault → String
  | .noValue name => s!"'{name}' has no value"
  | .notATable name => s!"'{name}' is not a table"
  | .failed name reason => s!"'{name}': {reason}"

inductive IndexFault
  | negative (index : Int)
  | outside (row col rows cols : Nat)
  deriving DecidableEq, Repr

def IndexFault.message : IndexFault → String
  | .negative index => s!"Negative table index {index}"
  | .outside row col rows cols => (DataError.range row col rows cols).message

/-- Why a formula has no tree, or its tree no value. -/
inductive FormulaError
  | malformed (fault : SyntaxFault)
  | unknownOperator (symbol : String)
  | unknownFunction (name : String)
  | argumentCount (function : Signature) (actual : Nat)
  | missingOperand (symbol : String)
  | malformedAccess (fault : AccessFault)
  | unknownCell (name : String)
  | unterminatedString (text : String)
  | lookup (fault : LookupFault)
  | conversion (cause : ConversionError)
  | dangling (name : String)
  | index (fault : IndexFault)
  deriving DecidableEq, Repr

def FormulaError.message : FormulaError → String
  | .malformed fault => s!"Syntax error: {fault.message}"
  | .unknownOperator symbol => s!"Unknown operator: {symbol}"
  | .unknownFunction name => s!"Unknown function: {name}"
  | .argumentCount function actual =>
    s!"Wrong number of arguments for {function.name}: " ++
      s!"expected {function.expected}, got {actual}"
  | .missingOperand symbol => s!"Missing operand for '{symbol}'"
  | .malformedAccess fault => s!"Malformed table access: {fault.message}"
  | .unknownCell name => s!"Unknown cell: {name}"
  | .unterminatedString text => s!"Unterminated string literal: {text}"
  | .lookup fault => s!"Evaluation error: {fault.message}"
  | .conversion cause => cause.message
  | .dangling name => s!"Reference to deleted cell '{name}'"
  | .index fault => fault.message

/-- Whether the text of the formula is at fault, whatever the cells hold. -/
def FormulaError.isDefinition : FormulaError → Bool
  | .malformed _ | .unknownOperator _ | .unknownFunction _ | .argumentCount _ _
  | .missingOperand _ | .malformedAccess _ | .unknownCell _ | .unterminatedString _ => true
  | .lookup _ | .conversion _ | .dangling _ | .index _ => false

def FormulaError.ofData : DataError → FormulaError
  | .range row col rows cols => .index (.outside row col rows cols)
  | .conversion cause => .conversion cause

end LiveSheet
