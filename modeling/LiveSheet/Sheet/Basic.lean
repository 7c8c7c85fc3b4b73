import LiveSheet.PostOrder
import LiveSheet.Sheet.Cell

namespace LiveSheet

/-- How new cells are named and filled, and the tag of the evaluator in stored sheets. -/
structure Settings where
  namePrefix : String
  defaultFormula : String
  evaluator : String
  deriving DecidableEq, Repr

def Settings.default : Settings :=
  ⟨"cell", "0", "tree"⟩

/-- Misuse of a sheet, as opposed to a formula that fails. -/
inductive SheetError
  | notFound (name : String)
  | unknownId (id : CellId)
  | nameInUse (name : String)
  | invalidName (name : String)
  | notATable (name : String)
  | notAFormula (name : String)
  | data (cause : DataError)
  deriving DecidableEq, Repr

def SheetError.message : SheetError → String
  | .notFound name => s!"Cell not found: {name}"
  | .unknownId id => s!"Cell not found: {id.text}"
  | .nameInUse name => s!"Cell name already in use: {name}"
  | .invalidName name => s!"Invalid cell name: {name}"
  | .notATable name => s!"Cell '{name}' is not a table"
  | .notAFormula name => s!"Cell '{name}' is a table and has no formula"
  | .data cause => cause.message

abbrev NameIndex := List (String × CellId)

def NameIndex.insert (index : NameIndex) (name : String) (id : CellId) : NameIndex :=
  (name, id) :: index

def NameIndex.erase (index : NameIndex) (name : String) : NameIndex :=
  index.filter fun entry => entry.1 != name

/-- Cells in order of creation, their names, and the numbers last used for a cell and for a
generated name. -/
structure Sheet where
  settings : Settings
  cells : List Cell
  names : NameIndex
  lastId : Nat
  lastName : Nat

namespace Sheet

def new (settings : Settings) : Sheet :=
  ⟨settings, [], [], 0, 0⟩

def ids (s : Sheet) : List CellId :=
  s.cells.map Cell.id

def cell? (s : Sheet) (id : CellId) : Option Cell :=
  s.cells.find? fun c => c.id = id

def idOf? (s : Sheet) (name : String) : Option CellId :=
  s.names.lookup name

def cell (s : Sheet) (id : CellId) : Except SheetError Cell :=
  match s.cell? id with
  | some c => .ok c
  | none => .error (.unknownId id)

def get (s : Sheet) (name : String) : Except SheetError Cell :=
  match (s.idOf? name).bind s.cell? with
  | some c => .ok c
  | none => .error (.notFound name)

def table (s : Sheet) (id : CellId) : Except SheetError Grid :=
  match s.cell id with
  | .ok c =>
    match c.grid? with
    | some grid => .ok grid
    | none => .error (.notATable c.name)
  | .error e => .error e

def tableValue (s : Sheet) (id : CellId) (row col : Nat) : Except SheetError Float :=
  match s.table id with
  | .ok grid => (grid.get row col).mapError SheetError.data
  | .error e => .error e

def modify (s : Sheet) (id : CellId) (f : Cell → Cell) : Sheet :=
  { s with cells := s.cells.map fun c => if c.id = id then f c else c }

def hasError (s : Sheet) (id : CellId) : Bool :=
  (s.cell? id).any Cell.hasError

def displayName (s : Sheet) (id : CellId) : String :=
  match s.cell? id with
  | some c => c.name
  | none => id.text

def referencesOf (s : Sheet) (id : CellId) : List CellId :=
  match s.cell? id with
  | some c => c.references.ids
  | none => []

def dependentsOf (s : Sheet) (id : CellId) : List CellId :=
  match s.cell? id with
  | some c => c.referencedBy.ids
  | none => []

/-- All cells, each after the cells that it references. -/
def evaluationOrder (s : Sheet) : List CellId :=
  postOrder s.referencesOf s.ids s.ids

/-- The roots and all cells that depend on them, each after those of them that it depends on. -/
def affectedOrder (s : Sheet) (roots : List CellId) : List CellId :=
  (postOrder s.dependentsOf s.ids roots).reverse

/-- The cells that a cell depends on, as far as its references know theirs. -/
def collectDeep (s : Sheet) (id : CellId) : IdSet :=
  (s.referencesOf id).foldl
    (fun deep r => (deep.insert r).union ((s.cell? r).elim ∅ Cell.deep)) ∅

def resolver (s : Sheet) : Resolver :=
  s.idOf?

def referenced (s : Sheet) (ref : CellRef) : Except FormulaError Cell :=
  match s.cell? ref.id with
  | some c => .ok c
  | none => .error (.dangling ref.name)

/-- What formulas find in the cells as they stand. -/
def context (s : Sheet) : Context where
  value ref := do
    let c ← s.referenced ref
    match c.read with
    | .ok v => return v
    | .error e => throw (.lookup (.failed c.name e.message))
  element ref row col := do
    let c ← s.referenced ref
    match c.grid? with
    | none => throw (.lookup (.notATable c.name))
    | some grid =>
      match grid.get row col with
      | .ok x => return .float x
      | .error e => throw (.ofData e)

end Sheet

end LiveSheet
