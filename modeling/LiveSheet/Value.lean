import LiveSheet.Text.Blank
import LiveSheet.Number.Shortest

namespace LiveSheet

inductive NumberKind
  | float
  | integer
  deriving DecidableEq, Repr

def NumberKind.name : NumberKind → String
  | .float => "float"
  | .integer => "integer"

/-- The text of a value that has no reading as a number of the wanted kind. -/
structure ConversionError where
  source : String
  target : NumberKind
  deriving DecidableEq, Repr

def ConversionError.message (e : ConversionError) : String :=
  s!"Cannot convert '{e.source}' to {e.target.name}"

/-- A scalar value, held by a cell or produced by a formula. -/
inductive Value
  | float (x : Float)
  | integer (n : Int64)
  | string (s : String)
  | boolean (b : Bool)
  deriving DecidableEq, Repr

/-- Equal values of one representation. A not-a-number differs from itself, and the zeros agree. -/
def Value.beq : Value → Value → Bool
  | .float x, .float y => x == y
  | .integer m, .integer n => m == n
  | .string s, .string t => s == t
  | .boolean a, .boolean b => a == b
  | _, _ => false

instance : BEq Value := ⟨Value.beq⟩

instance : Inhabited Value := ⟨.float 0⟩

def Value.typeName : Value → String
  | .float _ => "float"
  | .integer _ => "integer"
  | .string _ => "string"
  | .boolean _ => "boolean"

def Value.isNumber : Value → Bool
  | .float _ | .integer _ => true
  | .string _ | .boolean _ => false

/-- The float nearest to an integer. -/
def floatOf (n : Int64) : Float :=
  Float.ofInt n.toInt

/-- Whole numbers of at most fifteen digits are written as integers, without the sign of a zero. -/
def displayText (x : Float) : String :=
  match (Binary.ofFloat x).toInt? with
  | some n =>
    if x.abs < 1e15 then toString (Int64.ofIntClamp n).toInt else String.ofList (floatText x)
  | none => String.ofList (floatText x)

def Value.asText : Value → String
  | .float x => displayText x
  | .integer n => toString n.toInt
  | .string s => s
  | .boolean true => "true"
  | .boolean false => "false"

/-- The integer equal to a number without fractional part. The bounds of the integers are compared
as floats, and the upper one is rounded up; what is past the integers is taken for the last one. -/
def integerOf? (x : Float) : Option Int64 :=
  (Binary.ofFloat x).toInt?.bind fun n =>
    if floatOf Int64.minValue ≤ x ∧ x ≤ floatOf Int64.maxValue then some (Int64.ofIntClamp n)
    else none

def readInteger? (cs : List Char) : Option Int64 :=
  (readInt? cs).bind fun n =>
    if Int64.minValue.toInt ≤ n ∧ n ≤ Int64.maxValue.toInt then some (Int64.ofInt n) else none

def Value.asFloat : Value → Except ConversionError Float
  | .float x => .ok x
  | .integer n => .ok (floatOf n)
  | .boolean b => .ok (if b then 1 else 0)
  | .string s =>
    match readFloat? (trimBlanks s.toList) with
    | some x => .ok x
    | none => .error ⟨s, .float⟩

def Value.asInteger (v : Value) : Except ConversionError Int64 :=
  match v with
  | .integer n => .ok n
  | .boolean b => .ok (if b then 1 else 0)
  | .float x =>
    match integerOf? x with
    | some n => .ok n
    | none => .error ⟨v.asText, .integer⟩
  | .string s =>
    let cs := trimBlanks s.toList
    match readInteger? cs <|> (readFloat? cs).bind integerOf? with
    | some n => .ok n
    | none => .error ⟨s, .integer⟩

/-- Zero, a not-a-number, the blank text and the word `false` are false. -/
def Value.asBool : Value → Bool
  | .boolean b => b
  | .float x => !(x == 0) && !x.isNaN
  | .integer n => n != 0
  | .string s =>
    let cs := trimBlanks s.toList
    !(cs.isEmpty || sameLetters cs "false".toList)

end LiveSheet
