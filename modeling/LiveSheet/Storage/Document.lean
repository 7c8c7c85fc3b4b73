import LiveSheet.Sheet.Procedure
import LiveSheet.Storage.Json

namespace LiveSheet

structure Record where
  name : String
  formula : String
  deriving DecidableEq, Repr

/-- A sheet as it is stored: its formula cells in order of creation. -/
structure Document where
  evaluator : String
  cells : List Record
  deriving DecidableEq, Repr

inductive StorageError
  | file (detail : String)
  | json
  | database
  | cell (cause : SheetError)
  | unsupportedEvaluator (tag : String)
  deriving DecidableEq, Repr

def StorageError.message : StorageError → String
  | .file detail => s!"I/O error: {detail}"
  | .json => "JSON error: not a stored sheet"
  | .database => "SQLite error: not a stored sheet"
  | .cell cause => s!"Invalid stored cell: {cause.message}"
  | .unsupportedEvaluator tag => s!"Unsupported evaluator: {tag}"

def StorageError.cause? : StorageError → Option String
  | .file detail => some detail
  | .json | .database => some "not a stored sheet"
  | .cell cause => some cause.message
  | .unsupportedEvaluator _ => none

namespace Document

def ofSheet (s : Sheet) : Document where
  evaluator := s.settings.evaluator
  cells := (s.cells.filter fun c => !c.isTable).map fun c => ⟨c.name, c.formula⟩

/-- Creates the cells of some records one after the other. -/
def replay : List Record → Procedure Unit
  | [] => return
  | record :: rest => do
    let _ ← Procedure.createCell (some record.name) (some record.formula)
    replay rest

/-- The sheet with the cells of a document, if its evaluator is the one of the settings. -/
def restoreWith (settings : Settings) (d : Document) : Except StorageError Sheet :=
  if d.evaluator = settings.evaluator then
    match (replay d.cells).onSheet (Sheet.new settings) with
    | .ok ((), s) => .ok s
    | .error e => .error (.cell e)
  else .error (.unsupportedEvaluator d.evaluator)

def restore (d : Document) : Except StorageError Sheet :=
  d.restoreWith Settings.default

def recordOfJson? (j : Json) : Option Record := do
  let [name, formula] ← j.fields? ["name", "formula"] | none
  return ⟨← name.text?, ← formula.text?⟩

def ofJson? (j : Json) : Option Document := do
  let [evaluator, cells] ← j.fields? ["evaluator", "cells"] | none
  return ⟨← evaluator.text?, ← (← cells.items?).mapM recordOfJson?⟩

def recordToJson (record : Record) : Json :=
  .object [(some "name", .string record.name), (some "formula", .string record.formula)]

def toJson (d : Document) : Json :=
  .object [(some "evaluator", .string d.evaluator),
    (some "cells", .array (d.cells.map recordToJson))]

def render (d : Document) : String :=
  String.ofList (d.toJson.pretty 0)

def parse? (text : String) : Option Document :=
  (Json.parse? text).bind ofJson?

end Document

def Sheet.ofText (text : String) : Except StorageError Sheet :=
  match Document.parse? text with
  | some d => d.restore
  | none => .error .json

def Sheet.toText (s : Sheet) : String :=
  (Document.ofSheet s).render

end LiveSheet
