import LiveSheet.Command.Report
import LiveSheet.Storage.FileFormat
import LiveSheet.Storage.Positions

namespace LiveSheet

/-- What a command asks of its host on the way to a report. An answer of the file system that is an
error carries its words. -/
inductive Plan
  | finish (report : Report)
  | find (path : String) (next : Bool → Plan)
  | read (path : String) (next : Except String String → Plan)
  | write (path text : String) (next : Except String Unit → Plan)
  | remove (path : String) (next : Except String Unit → Plan)
  /-- Opens a database and reads the rows of its tables. -/
  | query (path : String)
    (next : Option (Document × List (String × Float × Float)) → Plan)
  /-- Opens a database, with tables if it has none yet, and adds these rows to them. -/
  | insert (path : String) (document : Document) (positions : Positions) (next : Bool → Plan)

namespace Plan

/-- Gives up before any file is touched. -/
def unsupported (output path : String) : Plan :=
  .finish (.failure output ⟨s!"Unsupported file format: {path}", []⟩)

def load (path : String) (next : Sheet → Positions → Plan) : Plan :=
  match FileFormat.ofPath? path with
  | none => .unsupported "" path
  | some .json => .read path fun answer =>
    match answer with
    | .ok text => opened ((Sheet.ofText text).map fun s => (s, []))
    | .error detail => failed (.file detail)
  | some .database => .query path fun answer =>
    match answer with
    | some (document, rows) =>
      opened (document.restore.map fun s => (s, Positions.ofList rows))
    | none => failed .database
where
  failed (e : StorageError) : Plan :=
    .finish (.failure "" ⟨s!"Failed to open '{path}'", e.causes⟩)
  opened (stored : Except StorageError (Sheet × Positions)) : Plan :=
    match stored with
    | .ok (s, positions) => next s positions
    | .error e => failed e

/-- Writes a sheet to a file after some output. A database takes the place of what is
at its path. -/
def save (s : Sheet) (positions : Positions) (path output : String) : Plan :=
  match FileFormat.ofPath? path with
  | none => .unsupported output path
  | some .json => .write path s.toText fun answer =>
    match answer with
    | .ok () => saved
    | .error detail => failed (.file detail)
  | some .database => .find path fun there =>
    if there then .remove path fun answer =>
      match answer with
      | .ok () => inserted
      | .error detail => failed (.file detail)
    else inserted
where
  failed (e : StorageError) : Plan :=
    .finish (.failure output ⟨s!"Failed to write '{path}'", e.causes⟩)
  saved : Plan :=
    .finish (.success output s!"Wrote {s.cells.length} cells to '{path}'\n")
  inserted : Plan :=
    .insert path (Document.ofSheet s) positions fun done =>
      if done then saved else failed .database

end Plan

end LiveSheet
