import LiveSheet.Command.Host
import LiveSheet.Simulation.Address
import LiveSheet.Simulation.Database

namespace LiveSheet

/-- Files by the paths to them, in a folder without folders and in those above it. Commands can be
tried in it; it stands for the files of one machine and their limits, not for files as such. -/
abbrev Directory := List (String × String)

/-- Where a path ends: at a folder, at a file that may be missing, or beyond a missing folder. -/
inductive Directory.Target
  | folder
  | file (path : String)
  | beyond
  deriving DecidableEq, Repr

namespace Directory

def longestName : Nat := 255

def longestPath : Nat := 4095

def missing : String := "No such file or directory"

def has (d : Directory) (path : String) : Bool :=
  (d.lookup path).isSome

/-- Follows the parts of a path from a folder, each of which but the last has to be one. -/
def follow (d : Directory) (folder : List Char) : List (List Char) → Except String Target
  | [] => .ok .folder
  | part :: rest =>
    if part.isEmpty || part = ['.'] then d.follow folder rest
    else if part = upward then d.follow (folder ++ upward ++ ['/']) rest
    else
      let path := String.ofList (folder ++ part)
      if longestName < (String.ofList part).utf8ByteSize then .error "File name too long"
      else if rest.isEmpty then .ok (.file path)
      else if d.has path then .error "Not a directory"
      else .ok .beyond

/-- Where a path ends. What is at the top is out of reach. -/
def target (d : Directory) (path : String) : Except String Target :=
  if path = "" then .ok .beyond
  else if longestPath < path.utf8ByteSize then .error "File name too long"
  else if path.toList.head? = some '/' then .error "Permission denied"
  else d.follow [] (path.toList.splitOnP (· == '/'))

def put (d : Directory) (name text : String) : Directory :=
  if d.any fun file => file.1 = name then
    d.map fun file => if file.1 = name then (name, text) else file
  else d ++ [(name, text)]

def find (d : Directory) (path : String) : Except String Bool :=
  (d.target path).map fun target =>
    match target with
    | .folder => true
    | .file file => d.has file
    | .beyond => false

def fileAt (d : Directory) (path : String) : Except String String :=
  match d.target path with
  | .ok (.file file) => .ok file
  | .ok .folder => .error "Is a directory"
  | .ok .beyond => .error missing
  | .error detail => .error detail

def read (d : Directory) (path : String) : Except String String :=
  (d.fileAt path).bind fun file =>
    match d.lookup file with
    | some text => .ok text
    | none => .error missing

def write (d : Directory) (path text : String) : Except String Unit × Directory :=
  match d.fileAt path with
  | .ok file => (.ok (), d.put file text)
  | .error detail => (.error detail, d)

def remove (d : Directory) (path : String) : Except String Unit × Directory :=
  match d.fileAt path with
  | .ok file =>
    if d.has file then (.ok (), d.filter fun other => other.1 != file) else (.error missing, d)
  | .error detail => (.error detail, d)

/-- A database is no text. -/
def readText (d : Directory) (path : String) : Except String String :=
  (d.read path).bind fun text =>
    if Database.isStored text then .error "The file is a database" else .ok text

/-- What is done to the files until it fails. -/
abbrev Attempt := OptionT (StateM Directory)

/-- Follows a way to where it ends, and tells whether anything is there. -/
def pursue : List String → Attempt (String × Bool)
  | [] => failure
  | path :: rest => do
    match (← get).find path with
    | .error _ => failure
    | .ok there => if rest.isEmpty then return (path, there) else pursue rest

def require : Option String → Attempt Unit
  | none => return
  | some file => do
    match (← get).find file with
    | .ok true => return
    | _ => failure

def hasText (d : Directory) (path : String) : Bool :=
  match d.find path, d.read path with
  | .ok true, .ok text => text != ""
  | _, _ => false

def discard (path : String) : Attempt Unit :=
  modify fun d => (d.remove path).2

def removeText (path : String) : Attempt Unit := do
  if (← get).hasText path then discard path

def store (path text : String) : Attempt Unit := do
  let (answer, d) := (← get).write path text
  set d
  match answer with
  | .ok () => return
  | .error _ => failure

/-- Finishes what an earlier use of a database has left beside it. That needs the right to write. -/
def recover (f : DatabaseFile) (path : String) : Attempt Unit := do
  if f.isFixed then return
  else if f.isWritable then
    removeText (path ++ "-journal")
    removeText (path ++ "-wal")
  else if (← get).hasText (path ++ "-journal") then failure

/-- Opens a database and gives its path and its text. One that is created has no text. -/
def openDatabase (f : DatabaseFile) : Attempt (String × String) := do
  let (path, there) ← pursue f.stations
  require f.model?
  if there then
    recover f path
    match (← get).read path with
    | .ok text => return (path, text)
    | .error _ => failure
  else if f.mode = .create then
    store path ""
    recover f path
    return (path, "")
  else failure

/-- Writes a database to its file. There has to be room for a journal while that is done. -/
def rewriteDatabase (path : String) (db : Database) : Attempt Unit := do
  match (← get).find (path ++ "-journal") with
  | .error _ => failure
  | .ok there =>
    if there then discard (path ++ "-journal")
    store path db.render

/-- Adds what a database holds to the one at a place. -/
def addDatabase (db : Database) : DatabasePlace → Attempt Unit
  | .memory isWritable => if isWritable then return else failure
  | .file f => do
    let (path, text) ← openDatabase f
    match f.isWritable, db.addTo? text with
    | true, some whole => rewriteDatabase path whole
    | _, _ => failure

def query (path : String) (d : Directory) :
    Option (Document × List (String × Float × Float)) × Directory :=
  match DatabasePlace.ofPath? path with
  | some (.file f) =>
    let (opened, d) := (openDatabase f).run.run d
    (opened.bind fun (_, text) => (Database.parse? text).map fun db =>
      (db.document, db.positions), d)
  | _ => (none, d)

def insert (path : String) (document : Document) (positions : Positions) (d : Directory) :
    Bool × Directory :=
  match Database.make document positions, DatabasePlace.ofPath? path with
  | .ok db, some place =>
    let (done, d) := (addDatabase db place).run.run d
    (done.isSome, d)
  | _, _ => (false, d)

def host : Host Directory where
  find path d := (d.find path).toOption.getD false
  read path d := d.readText path
  write path text d := d.write path text
  remove path d := d.remove path
  query := query
  insert := insert

end Directory

/-- The report of a plan in a directory, and the directory after it. -/
def Plan.runIn (plan : Plan) (d : Directory) : Report × Directory :=
  plan.runOn Directory.host d

end LiveSheet
