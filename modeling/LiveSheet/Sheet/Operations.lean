import LiveSheet.Sheet.Edit

namespace LiveSheet

namespace Sheet

def generatedName (s : Sheet) (n : Nat) : String :=
  s.settings.namePrefix ++ toString n

/-- The first number above the last one whose name is free. Among one more numbers than there are
names, one is. -/
def freshNumber (s : Sheet) : Nat :=
  let candidates := List.range' (s.lastName + 1) (s.names.length + 1)
  (candidates.find? fun n => (s.idOf? (s.generatedName n)).isNone).getD (s.lastName + 1)

def nextId (s : Sheet) : CellId :=
  ⟨s.lastId + 1⟩

/-- The sheet with a new last cell, not yet settled. -/
def insertCell (s : Sheet) (name formula : String) (content : Content) : Sheet :=
  { s with
    cells := s.cells ++ [Cell.new s.nextId name formula content]
    names := s.names.insert name s.nextId
    lastId := s.lastId + 1 }

end Sheet

/-- The cell without any trace of the cell `gone`, except that its formula may now use a name that
belongs to no cell. -/
def Cell.detach (gone : Cell) (c : Cell) : Cell :=
  let c := { c with deep := c.deep.erase gone.id }
  let c := if c.id ∈ gone.references then
      { c with referencedBy := c.referencedBy.erase gone.id } else c
  if c.id ∈ gone.referencedBy then
    { c with references := c.references.erase gone.id
             unresolved := c.unresolved.insert gone.name }
  else c

namespace Sheet

/-- The sheet without a cell, its dependents not yet settled. -/
def removeCell (s : Sheet) (gone : Cell) : Sheet :=
  { s with
    cells := (s.cells.filter fun c => c.id != gone.id).map (Cell.detach gone)
    names := s.names.erase gone.name }

/-- The cells whose formulas may use the name of a cell: those bound to it, and those that wait for
some other name. -/
def mayMention (s : Sheet) (c : Cell) : IdSet :=
  c.referencedBy.union
    (.ofList ((s.cells.filter fun d => d.id != c.id && !d.unresolved.isEmpty).map Cell.id))

/-- The sheet in which a cell has another name, its uses not yet renamed. -/
def relabel (s : Sheet) (id : CellId) (old new : String) : Sheet :=
  { s.modify id fun c => { c with name := new } with
    names := (s.names.erase old).insert new id }

def renameMentions (old new : String) (e : Edit) (id : CellId) : Edit :=
  match (e.sheet.cell? id).bind fun c => renameReference? c.formula old new with
  | some formula => (e.modify id fun c => { c with formula := formula }).announce id
      (.formulaChanged formula)
  | none => e

end Sheet

/-- Tells the new bounds of a table that has changed, and recomputes all that depends on it. -/
def Edit.tableChanged (e : Edit) (id : CellId) : Edit :=
  match (e.sheet.cell? id).bind Cell.grid? with
  | some grid => (e.announce id (.tableChanged grid.rows grid.cols)).propagate id
  | none => e.propagate id

end LiveSheet
