import LiveSheet.Sheet.Session

namespace LiveSheet

namespace Sheet

/-- The name for a new cell, and the sheet with the number used for it. -/
def claimName (s : Sheet) : Option String → Except SheetError (String × Sheet)
  | some name =>
    if !isValidName name then .error (.invalidName name)
    else if (s.idOf? name).isSome then .error (.nameInUse name)
    else .ok (name, s)
  | none =>
    let n := s.freshNumber
    .ok (s.generatedName n, { s with lastName := n })

def createCell (s : Sheet) (name formula : Option String) : Except SheetError (CellId × Edit) :=
  match s.claimName name with
  | .error e => .error e
  | .ok (name, s) =>
    let inserted := s.insertCell name (formula.getD s.settings.defaultFormula) (.formula none)
    .ok (s.nextId, (inserted.unchanged.applyFormula s.nextId).rebind name)

def createTable (s : Sheet) (name : Option String) (rows cols : Nat) :
    Except SheetError (CellId × Edit) :=
  match s.claimName name with
  | .error e => .error e
  | .ok (name, s) =>
    let inserted := s.insertCell name "" (.table (Grid.zeros rows cols))
    .ok (s.nextId, inserted.unchanged.rebind name)

def deleteCell (s : Sheet) (id : CellId) : Except SheetError Edit :=
  match s.cell id with
  | .error e => .error e
  | .ok gone =>
    let s := s.removeCell gone
    let e : Edit := s.unchanged.announce id .deleteRequested
    .ok (e.refreshAll (s.affectedOrder gone.referencedBy.ids))

def setFormula (s : Sheet) (id : CellId) (formula : String) : Except SheetError Edit :=
  match s.cell id with
  | .error e => .error e
  | .ok c =>
    if c.isTable then .error (.notAFormula c.name)
    else .ok ((s.unchanged.setFormula id formula).applyFormula id)

/-- The sheet in which a cell has another name, also in the formulas that use it; nothing for a
name that is not valid or belongs to another cell. -/
def rename (s : Sheet) (id : CellId) (new : String) : Option Edit :=
  match s.cell? id with
  | none => none
  | some c =>
    if c.name = new then some s.unchanged
    else if !isValidName new || (s.idOf? new).isSome then none
    else
      let e : Edit := (s.relabel id c.name new).unchanged.announce id (.nameChanged c.name new)
      some (((s.mayMention c).ids.foldl (renameMentions c.name new) e).rebind new)

def replaceGrid (s : Sheet) (id : CellId) (grid : Grid) : Edit :=
  let e := s.unchanged.modify id fun c => { c with content := .table grid }
  (e.announce id (.tableChanged grid.rows grid.cols)).propagate id

def setTableValue (s : Sheet) (id : CellId) (row col : Nat) (x : Float) :
    Except SheetError Edit :=
  match s.table id with
  | .error e => .error e
  | .ok grid =>
    match grid.set row col x with
    | .ok grid => .ok (s.replaceGrid id grid)
    | .error e => .error (.data e)

def resizeTable (s : Sheet) (id : CellId) (rows cols : Nat) : Except SheetError Edit :=
  match s.table id with
  | .error e => .error e
  | .ok grid => .ok (s.replaceGrid id (grid.resize rows cols))

end Sheet

def Subscriptions.has (s : Subscriptions) (id : CellId) (handle : Handle) : Bool :=
  s.live.contains (id, handle)

namespace Session

def keep (s : Session) (reply : Reply) : Step :=
  ⟨s, reply, []⟩

/-- Takes over an edited sheet and tells the subscribers. -/
def accept (s : Session) (reply : Reply) (e : Edit) : Step :=
  ⟨{ s with sheet := e.sheet }, reply, s.subscriptions.deliver e.changes⟩

def attempt (s : Session) : Except SheetError Edit → Step
  | .ok e => s.accept .done e
  | .error e => s.keep (.failed e)

def attemptCreate (s : Session) : Except SheetError (CellId × Edit) → Step
  | .ok (id, e) => s.accept (.created id) e
  | .error e => s.keep (.failed e)

def delete (s : Session) (id : CellId) : Step :=
  match s.sheet.deleteCell id with
  | .error e => s.keep (.failed e)
  | .ok e =>
    ⟨⟨e.sheet, s.subscriptions.dropCell id⟩, .done, s.subscriptions.deliver e.changes⟩

def subscribe (s : Session) (id : CellId) : Step :=
  match s.sheet.cell id with
  | .error e => s.keep (.failed e)
  | .ok _ =>
    let subscriptions := s.subscriptions.add id
    { s with subscriptions := subscriptions }.keep (.subscribed subscriptions.lastHandle)

def unsubscribe (s : Session) (id : CellId) (handle : Handle) : Step :=
  if s.subscriptions.has id handle then
    { s with subscriptions := s.subscriptions.remove id handle }.keep (.flag true)
  else s.keep (.flag false)

end Session

end LiveSheet
