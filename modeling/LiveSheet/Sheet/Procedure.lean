import LiveSheet.Sheet.Operations

namespace LiveSheet

/-- A sheet and those who are told of its changes. -/
structure Session where
  sheet : Sheet
  subscriptions : Subscriptions

/-- A session in the course of an operation, with what the subscribers were told so far. -/
structure Course where
  session : Session
  delivered : List (Handle × CellEvent)

/-- What is done to a session step by step. An error ends it and takes nothing back. -/
abbrev Procedure := EStateM SheetError Course

namespace Procedure

def sheet : Procedure Sheet :=
  return (← get).session.sheet

def putSheet (s : Sheet) : Procedure Unit :=
  modify fun c => { c with session := { c.session with sheet := s } }

def subscriptions : Procedure Subscriptions :=
  return (← get).session.subscriptions

def putSubscriptions (s : Subscriptions) : Procedure Unit :=
  modify fun c => { c with session := { c.session with subscriptions := s } }

/-- Edits the sheet. Whoever is subscribed at this time is told of the changes. -/
def edit (f : Edit → Edit) : Procedure Unit :=
  modify fun c =>
    let e := f c.session.sheet.unchanged
    ⟨{ c.session with sheet := e.sheet },
      c.delivered ++ c.session.subscriptions.deliver e.changes⟩

def notify (id : CellId) (event : CellEvent) : Procedure Unit :=
  edit fun e => e.announce id event

/-- What a procedure makes of a sheet that nobody watches. -/
def onSheet {α : Type} (p : Procedure α) (s : Sheet) : Except SheetError (α × Sheet) :=
  match p.run ⟨⟨s, .none⟩, []⟩ with
  | .ok a c => .ok (a, c.session.sheet)
  | .error e _ => .error e

def generateName : Procedure String := do
  let s ← sheet
  putSheet { s with lastName := s.freshNumber }
  return s.generatedName s.freshNumber

/-- The name for a new cell: the wanted one if it may be used, or a generated one. -/
def claimName : Option String → Procedure String
  | some name => do
    if !isValidName name then throw (.invalidName name)
    if ((← sheet).idOf? name).isSome then throw (.nameInUse name)
    return name
  | none => generateName

def insertCell (name formula : String) (content : Content) : Procedure CellId := do
  let s ← sheet
  putSheet (s.insertCell name formula content)
  return s.nextId

def createCell (name formula : Option String) : Procedure CellId := do
  let name ← claimName name
  let formula := formula.getD (← sheet).settings.defaultFormula
  let id ← insertCell name formula (.formula none)
  edit fun e => (e.applyFormula id).rebind name
  return id

def createTable (name : Option String) (rows cols : Nat) : Procedure CellId := do
  let name ← claimName name
  let id ← insertCell name "" (.table (Grid.zeros rows cols))
  edit fun e => e.rebind name
  return id

/-- Nobody watches a deleted cell any more, after a last word to those who did. -/
def deleteCell (id : CellId) : Procedure Unit := do
  if ((← sheet).cell? id).isNone then throw (.unknownId id)
  notify id .deleteRequested
  let s ← sheet
  match s.cell? id with
  | none => throw (.unknownId id)
  | some gone =>
    putSheet (s.removeCell gone)
    putSubscriptions ((← subscriptions).dropCell id)
    edit fun e => e.refreshAll (e.sheet.affectedOrder gone.referencedBy.ids)

def setFormula (id : CellId) (formula : String) : Procedure Unit := do
  let c ← ofExcept ((← sheet).cell id)
  if c.isTable then throw (.notAFormula c.name)
  edit fun e => (e.setFormula id formula).applyFormula id

/-- Gives a cell another name, also in the formulas that use it. That is refused for a name that is
not valid or belongs to another cell. -/
def rename (id : CellId) (new : String) : Procedure Bool := do
  let s ← sheet
  match s.cell? id with
  | none => return false
  | some c =>
    if c.name = new then return true
    if !isValidName new || (s.idOf? new).isSome then return false
    putSheet (s.relabel id c.name new)
    edit fun e => ((s.mayMention c).ids.foldl (Sheet.renameMentions c.name new)
      (e.announce id (.nameChanged c.name new))).rebind new
    return true

def putGrid (id : CellId) (grid : Grid) : Procedure Unit := do
  putSheet ((← sheet).modify id fun c => { c with content := .table grid })

def setTableValue (id : CellId) (row col : Nat) (x : Float) : Procedure Unit := do
  let grid ← ofExcept ((← sheet).table id)
  let grid ← ofExcept ((grid.set row col x).mapError SheetError.data)
  putGrid id grid
  edit fun e => e.tableChanged id

def resizeTable (id : CellId) (rows cols : Nat) : Procedure Unit := do
  let grid ← ofExcept ((← sheet).table id)
  putGrid id (grid.resize rows cols)
  edit fun e => e.tableChanged id

def subscribe (id : CellId) : Procedure Handle := do
  let _ ← ofExcept ((← sheet).cell id)
  let added := (← subscriptions).add id
  putSubscriptions added
  return added.lastHandle

/-- Takes a subscription back and tells whether there was one. -/
def unsubscribe (id : CellId) (handle : Handle) : Procedure Bool := do
  let before ← subscriptions
  putSubscriptions (before.remove id handle)
  return before.live.length != (← subscriptions).live.length

end Procedure

end LiveSheet
