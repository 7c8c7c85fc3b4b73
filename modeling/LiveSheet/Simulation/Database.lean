import LiveSheet.Storage.Document
import LiveSheet.Storage.Positions

namespace LiveSheet

/-- A stored sheet with the positions of its cells, kept as a text in place of a database engine. -/
structure Database where
  document : Document
  positions : Positions

namespace Database

/-- A coordinate as it is kept: one that is not a number is refused, and a zero loses its sign. -/
def coordinate? (x : Float) : Option Float :=
  if x.isNaN then none else some (if x == 0 then 0 else x)

def place? (entry : String × Float × Float) : Option (String × Float × Float) := do
  return (entry.1, ← coordinate? entry.2.1, ← coordinate? entry.2.2)

def make (document : Document) (positions : Positions) : Except StorageError Database :=
  match positions.mapM place? with
  | some positions => .ok ⟨document, positions⟩
  | none => .error .database

def header : List Char :=
  "LiveSheet database\n".toList

def coordinateToJson (x : Float) : Json :=
  .number (Nat.toDigits 10 x.toBits.toNat)

def coordinateOfJson? : Json → Option Float
  | .number literal => (readInt? literal).map fun n => Float.ofBits (UInt64.ofNat n.toNat)
  | _ => none

def placeToJson (entry : String × Float × Float) : Json :=
  .array [.string entry.1, coordinateToJson entry.2.1, coordinateToJson entry.2.2]

def placeOfJson? (j : Json) : Option (String × Float × Float) := do
  let [name, x, y] ← j.items? | none
  return (← name.text?, ← coordinateOfJson? x, ← coordinateOfJson? y)

def render (d : Database) : String :=
  let body : Json := .array [d.document.toJson, .array (d.positions.map placeToJson)]
  String.ofList (header ++ body.pretty 0)

def isStored (text : String) : Bool :=
  header.isPrefixOf text.toList

def parse? (text : String) : Option Database := do
  if isStored text then
    let body ← Json.parse? (String.ofList (text.toList.drop header.length))
    let [document, positions] ← body.items? | none
    return ⟨← Document.ofJson? document, ← (← positions.items?).mapM placeOfJson?⟩
  else none

/-- A database with the rows of another one added. Both number their cells from the beginning, so
not both may have cells, and a name has one position. -/
def append? (d added : Database) : Option Database :=
  if (d.document.cells.isEmpty || added.document.cells.isEmpty) &&
      !added.positions.any fun entry => (d.positions.lookup entry.1).isSome then
    some ⟨⟨d.document.evaluator, d.document.cells ++ added.document.cells⟩,
      Positions.ofList (d.positions ++ added.positions)⟩
  else none

/-- A database added to a file, which is empty before the first one. -/
def addTo? (text : String) (d : Database) : Option Database :=
  if text = "" then some d else (parse? text).bind (·.append? d)

def save (s : Sheet) (positions : Positions) : Except StorageError String :=
  (make (Document.ofSheet s) positions).map render

def load (text : String) : Except StorageError (Sheet × Positions) :=
  match parse? text with
  | some d => d.document.restore.map fun s => (s, d.positions)
  | none => .error .database

end Database

end LiveSheet
