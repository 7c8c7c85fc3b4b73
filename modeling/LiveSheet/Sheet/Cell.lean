import LiveSheet.Formula.Eval

namespace LiveSheet

inductive CellError
  | definition (cause : FormulaError)
  | evaluation (cause : FormulaError)
  | noScalar (name : String)
  | circular (name : String)
  | carried (name : String)
  deriving DecidableEq, Repr

inductive ErrorKind
  | definition
  | evaluation
  | circularReference
  | carried
  deriving DecidableEq, Repr

def ErrorKind.name : ErrorKind → String
  | .definition => "definition"
  | .evaluation => "evaluation"
  | .circularReference => "circular reference"
  | .carried => "carried"

def CellError.kind : CellError → ErrorKind
  | .definition _ => .definition
  | .evaluation _ | .noScalar _ => .evaluation
  | .circular _ => .circularReference
  | .carried _ => .carried

def CellError.message : CellError → String
  | .definition cause | .evaluation cause => cause.message
  | .noScalar name => s!"'{name}' is a table and has no scalar value"
  | .circular name => s!"Circular reference involving '{name}'"
  | .carried name => s!"Upstream error in '{name}'"

def CellError.text (e : CellError) : String :=
  s!"{e.kind.name} error: {e.message}"

/-- Whether the error comes from the formula and the references, not from what other cells hold. -/
def CellError.isStructural (e : CellError) : Bool :=
  e.kind = .definition || e.kind = .circularReference

/-- What a cell holds: a formula, with its tree if it has one, or a table. -/
inductive Content
  | formula (tree : Option Expr)
  | table (grid : Grid)

/-- A named cell. The value is the last good one; `deep` has every cell that the value depends on,
`references` those that the tree names, and `referencedBy` the cells whose trees name this one.
Names in `unresolved` are used by the formula and belong to no cell. -/
structure Cell where
  id : CellId
  name : String
  formula : String
  content : Content
  value : Value
  error : Option CellError
  references : IdSet
  deep : IdSet
  referencedBy : IdSet
  unresolved : List String

namespace Cell

def new (id : CellId) (name formula : String) (content : Content) : Cell :=
  ⟨id, name, formula, content, default, none, ∅, ∅, ∅, []⟩

def tree? (c : Cell) : Option Expr :=
  match c.content with
  | .formula tree => tree
  | .table _ => none

def grid? (c : Cell) : Option Grid :=
  match c.content with
  | .formula _ => none
  | .table grid => some grid

def isTable (c : Cell) : Bool :=
  c.grid?.isSome

def hasError (c : Cell) : Bool :=
  c.error.isSome

def isStructural (c : Cell) : Bool :=
  c.error.any CellError.isStructural

def read (c : Cell) : Except CellError Value :=
  match c.error, c.content with
  | some e, _ => .error e
  | none, .formula _ => .ok c.value
  | none, .table _ => .error (.noScalar c.name)

end Cell

end LiveSheet
