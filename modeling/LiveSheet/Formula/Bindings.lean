import LiveSheet.Formula.Eval

namespace LiveSheet

/-- Names bound to values and tables outside any sheet. The names are numbered in the order in
which they were first bound; one name may have both a value and a table. -/
structure Bindings where
  names : List String
  values : List (String × Value)
  tables : List (String × Grid)

namespace Bindings

def empty : Bindings :=
  ⟨[], [], []⟩

def withName (b : Bindings) (name : String) : Bindings :=
  if name ∈ b.names then b else { b with names := b.names ++ [name] }

/-- A later binding of a name hides the earlier one. -/
def withValue (b : Bindings) (name : String) (v : Value) : Bindings :=
  { b.withName name with values := (name, v) :: b.values }

def withTable (b : Bindings) (name : String) (g : Grid) : Bindings :=
  { b.withName name with tables := (name, g) :: b.tables }

def resolve (b : Bindings) : Resolver :=
  fun name => (b.names.idxOf? name).map fun i => ⟨i + 1⟩

def name? (b : Bindings) (id : CellId) : Option String :=
  if id.number = 0 then none else b.names[id.number - 1]?

def value (b : Bindings) (ref : CellRef) : Except FormulaError Value :=
  match (b.name? ref.id).bind (b.values.lookup ·) with
  | some v => .ok v
  | none => .error (.lookup (.noValue ref.name))

def element (b : Bindings) (ref : CellRef) (row col : Nat) : Except FormulaError Value :=
  match (b.name? ref.id).bind (b.tables.lookup ·) with
  | some g =>
    match g.get row col with
    | .ok x => .ok (.float x)
    | .error e => .error (.ofData e)
  | none => .error (.lookup (.notATable ref.name))

def context (b : Bindings) : Context :=
  ⟨b.value, b.element⟩

end Bindings

end LiveSheet
