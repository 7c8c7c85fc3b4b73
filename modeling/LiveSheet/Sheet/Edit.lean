import LiveSheet.Sheet.Basic
import LiveSheet.Sheet.Change

namespace LiveSheet

/-- A sheet in the course of an operation, with the changes so far. -/
structure Edit where
  sheet : Sheet
  changes : List Change

def Sheet.unchanged (s : Sheet) : Edit :=
  ⟨s, []⟩

/-- The cell with `references` in place of `old` as the references of `id`. -/
def Cell.relink (id : CellId) (old references : IdSet) (c : Cell) : Cell :=
  let c := if c.id = id then { c with references := references } else c
  if c.id ∈ old.diff references then { c with referencedBy := c.referencedBy.erase id }
  else if c.id ∈ references.diff old then { c with referencedBy := c.referencedBy.insert id }
  else c

namespace Edit

def modify (e : Edit) (id : CellId) (f : Cell → Cell) : Edit :=
  { e with sheet := e.sheet.modify id f }

def announce (e : Edit) (id : CellId) (event : CellEvent) : Edit :=
  { e with changes := e.changes ++ [⟨id, event⟩] }

def setValue (e : Edit) (id : CellId) (v : Value) : Edit :=
  match e.sheet.cell? id with
  | none => e
  | some c =>
    if c.value == v then e
    else (e.modify id fun c => { c with value := v }).announce id (.valueChanged v)

def setError (e : Edit) (id : CellId) (error : Option CellError) : Edit :=
  match e.sheet.cell? id with
  | none => e
  | some c =>
    if c.error = error then e
    else (e.modify id fun c => { c with error := error }).announce id (.errorChanged error)

def setFormula (e : Edit) (id : CellId) (formula : String) : Edit :=
  match e.sheet.cell? id with
  | none => e
  | some c =>
    if c.formula = formula then e
    else (e.modify id fun c => { c with formula := formula }).announce id (.formulaChanged formula)

def setDeep (e : Edit) (id : CellId) (deep : IdSet) : Edit :=
  e.modify id fun c => { c with deep := deep }

/-- Gives a cell new references and brings the back references of all cells in line. -/
def setReferences (e : Edit) (id : CellId) (references : IdSet) : Edit :=
  match e.sheet.cell? id with
  | none => e
  | some c =>
    { e with sheet := { e.sheet with
        cells := e.sheet.cells.map (Cell.relink id c.references references) } }

/-- Brings the value of a cell in line with its tree and the cells it depends on. An error of a
cell on which it depends takes precedence over its tree, and a structural error stays. -/
def recompute (e : Edit) (id : CellId) : Edit :=
  match e.sheet.cell? id with
  | none => e
  | some c =>
    if c.isStructural then e
    else match c.tree? with
      | none => e
      | some tree =>
        match c.deep.ids.find? e.sheet.hasError with
        | some broken => e.setError id (some (.carried (e.sheet.displayName broken)))
        | none =>
          match tree.eval e.sheet.context with
          | .ok v => (e.setError id none).setValue id v
          | .error cause => e.setError id (some (.evaluation cause))

def refresh (e : Edit) (id : CellId) : Edit :=
  (e.setDeep id (e.sheet.collectDeep id)).recompute id

def refreshAll (e : Edit) (order : List CellId) : Edit :=
  order.foldl refresh e

/-- Recomputes all that depends on a cell. -/
def propagate (e : Edit) (id : CellId) : Edit :=
  e.refreshAll ((e.sheet.affectedOrder [id]).drop 1)

/-- A formula without a tree leaves the references and the value as they were. -/
def failDefinition (e : Edit) (id : CellId) (cause : FormulaError) : Edit :=
  let missing := match cause with
    | .unknownCell name => [name]
    | _ => []
  let e := e.modify id fun c => { c with content := .formula none, unresolved := missing }
  (e.setError id (some (.definition cause))).propagate id

/-- Takes a cell whose formula closes a cycle out of the graph. The cells that depend on it keep
their values, but no longer depend on what it depended on. -/
def breakCycle (e : Edit) (id : CellId) : Edit :=
  let e := (e.setReferences id ∅).modify id fun c => { c with deep := ∅, content := .formula none }
  let e := e.setError id (some (.circular (e.sheet.displayName id)))
  ((e.sheet.affectedOrder [id]).drop 1).foldl
    (fun e dependent => e.setDeep dependent (e.sheet.collectDeep dependent)) e

def clearStructural (e : Edit) (id : CellId) : Edit :=
  if (e.sheet.cell? id).any Cell.isStructural then e.setError id none else e

/-- Settles a cell on a tree, and then all that depends on it. -/
def settle (e : Edit) (id : CellId) (tree : Expr) : Edit :=
  let e := e.modify id fun c => { c with content := .formula (some tree), unresolved := [] }
  let e := e.setReferences id tree.references
  let deep := e.sheet.collectDeep id
  if id ∈ deep then e.breakCycle id
  else (((e.setDeep id deep).clearStructural id).recompute id).propagate id

def applyFormula (e : Edit) (id : CellId) : Edit :=
  match e.sheet.cell? id with
  | none => e
  | some c =>
    if c.isTable then e
    else match compile e.sheet.resolver c.formula with
      | .ok tree => e.settle id tree
      | .error cause => e.failDefinition id cause

def waitingFor (e : Edit) (name : String) : List CellId :=
  (e.sheet.cells.filter fun c => c.unresolved.contains name).map Cell.id

/-- Settles the cells that waited for a name. -/
def rebind (e : Edit) (name : String) : Edit :=
  (e.waitingFor name).foldl applyFormula e

end Edit

end LiveSheet
