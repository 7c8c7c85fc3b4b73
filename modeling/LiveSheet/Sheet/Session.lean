import LiveSheet.Sheet.Procedure

namespace LiveSheet

/-- What can be asked of a sheet that its subscribers watch. -/
inductive Operation
  | createCell (name formula : Option String)
  | createTable (name : Option String) (rows cols : Nat)
  | deleteCell (id : CellId)
  | setFormula (id : CellId) (formula : String)
  | rename (id : CellId) (name : String)
  | setTableValue (id : CellId) (row col : Nat) (x : Float)
  | resizeTable (id : CellId) (rows cols : Nat)
  | subscribe (id : CellId)
  | unsubscribe (id : CellId) (handle : Handle)
  deriving DecidableEq, Repr

inductive Reply
  | created (id : CellId)
  | done
  | flag (b : Bool)
  | subscribed (handle : Handle)
  | failed (error : SheetError)
  deriving DecidableEq, Repr

def Operation.procedure : Operation → Procedure Reply
  | .createCell name formula => return .created (← Procedure.createCell name formula)
  | .createTable name rows cols => return .created (← Procedure.createTable name rows cols)
  | .deleteCell id => do
    Procedure.deleteCell id
    return .done
  | .setFormula id formula => do
    Procedure.setFormula id formula
    return .done
  | .rename id name => return .flag (← Procedure.rename id name)
  | .setTableValue id row col x => do
    Procedure.setTableValue id row col x
    return .done
  | .resizeTable id rows cols => do
    Procedure.resizeTable id rows cols
    return .done
  | .subscribe id => return .subscribed (← Procedure.subscribe id)
  | .unsubscribe id handle => return .flag (← Procedure.unsubscribe id handle)

/-- The session after an operation, its reply, and what the subscribers were told. -/
structure Step where
  session : Session
  reply : Reply
  delivered : List (Handle × CellEvent)

namespace Session

def new (settings : Settings) : Session :=
  ⟨Sheet.new settings, .none⟩

/-- Carries out an operation. One that fails leaves the session as it stands then. -/
def perform (s : Session) (op : Operation) : Step :=
  match op.procedure.run ⟨s, []⟩ with
  | .ok reply c => ⟨c.session, reply, c.delivered⟩
  | .error e c => ⟨c.session, .failed e, c.delivered⟩

def run (s : Session) (operations : List Operation) : Session :=
  operations.foldl (fun s op => (s.perform op).session) s

end Session

end LiveSheet
