import LiveSheet.Number.Decimal
import LiveSheet.Simulation.Percent
import LiveSheet.Storage.Path

namespace LiveSheet

/-- A place that is reached over some folders, the nearest one first, from the top or from where the
program runs. -/
structure Place where
  fromTop : Bool
  parts : List (List Char)
  deriving DecidableEq, Repr

namespace Place

def start (path : List Char) : Place :=
  ⟨path.head? = some '/', []⟩

/-- Goes on by one part. The way up undoes the last part, whatever stands there. -/
def step (p : Place) (part : List Char) : Place :=
  if part = upward then
    match p.parts with
    | [] => if p.fromTop then p else { p with parts := [upward] }
    | last :: above =>
      { p with parts := if last = upward then upward :: p.parts else above }
  else { p with parts := part :: p.parts }

/-- The places on a way, with the first and the last one. -/
def along (p : Place) : List (List Char) → List Place
  | [] => [p]
  | part :: rest => p :: along (p.step part) rest

def path (p : Place) : String :=
  let below := List.intercalate ['/'] p.parts.reverse
  if p.fromTop then String.ofList ('/' :: below)
  else if p.parts.isEmpty then "."
  else String.ofList below

end Place

/-- The shortest paths to all places that a path leads through, and to where it ends. -/
def stations (path : String) : List String :=
  ((Place.start path.toList).along (pathParts path.toList)).map Place.path

/-- How a database is opened. A mode that creates its file also writes it. -/
inductive OpenMode
  | readOnly
  | readWrite
  | create
  | memory
  deriving DecidableEq, Repr

namespace OpenMode

def ofText? : String → Option OpenMode
  | "ro" => some .readOnly
  | "rw" => some .readWrite
  | "rwc" => some .create
  | "memory" => some .memory
  | _ => none

/-- Whether a database that is opened in a mode may be opened in another one instead: with fewer
rights, or in memory, where everything is allowed. -/
def allows : OpenMode → OpenMode → Bool
  | .memory, _ | .create, _ | _, .memory => true
  | .readWrite, wanted => wanted != .create
  | .readOnly, wanted => wanted == .readOnly

/-- The mode after an option of an address, if the option has a meaning. -/
def after? (mode : OpenMode) (setting : String × String) : Option OpenMode :=
  match setting.1 with
  | "mode" => (ofText? setting.2).filter mode.allows
  | "cache" => if ["shared", "private"].contains setting.2 then some mode else none
  | _ => some mode

end OpenMode

/-- Where a database is: the path of its file, and the options for opening it. -/
structure Address where
  path : String
  settings : List (String × String)
  deriving DecidableEq, Repr

namespace Address

def readSetting (cs : List Char) : String × String :=
  (percentDecoded (cs.takeWhile (· != '=')), percentDecoded ((cs.dropWhile (· != '=')).drop 1))

/-- Leaves out the machine that an address names, which can only be this one. -/
def skipMachine? : List Char → Option (List Char)
  | '/' :: '/' :: rest =>
    let machine := rest.takeWhile (· != '/')
    if machine.isEmpty || machine = "localhost".toList then some (rest.dropWhile (· != '/'))
    else none
  | cs => some cs

/-- Reads what stands before a number sign: a path, and settings behind a question mark. Those
without a name are ignored. -/
def read (cs : List Char) : Address :=
  let text := cs.takeWhile (· != '#')
  let settings := ((text.dropWhile (· != '?')).drop 1).splitOnP (· == '&')
  ⟨percentDecoded (text.takeWhile (· != '?')),
    (settings.map readSetting).filter fun setting => setting.1 != ""⟩

def scheme : List Char :=
  "file:".toList

/-- A path is an address if it starts with the scheme, and stands for itself otherwise. -/
def ofPath? (path : String) : Option Address :=
  if scheme.isPrefixOf path.toList then
    (skipMachine? (path.toList.drop scheme.length)).map read
  else some ⟨path, []⟩

def mode? (a : Address) : Option OpenMode :=
  a.settings.foldlM OpenMode.after? .create

/-- The kinds of storage for databases: in files with several ways to lock them, or in memory. -/
def storages : List String :=
  ["unix", "unix-dotfile", "unix-excl", "unix-none", "memdb"]

def storage (a : Address) : String :=
  (a.settings.reverse.lookup "vfs").getD "unix"

/-- Whether a switch is on: by a word, or by a number whose lowest byte is not zero. -/
def isOn (value : String) : Bool :=
  let digits := value.toList.takeWhile Char.isDigit
  if digits.isEmpty then
    ["on", "yes", "true"].contains (String.ofList (value.toList.map Char.toLower))
  else ofDigits digits < Nat.pow 2 31 && ofDigits digits % 256 != 0

def isFixed (a : Address) : Bool :=
  (a.settings.lookup "immutable").any isOn

def model? (a : Address) : Option String :=
  a.settings.lookup "modeof"

end Address

/-- A file with a database, and how it is opened. -/
structure DatabaseFile where
  stations : List String
  model? : Option String
  mode : OpenMode
  isFixed : Bool
  deriving DecidableEq, Repr

def DatabaseFile.isWritable (f : DatabaseFile) : Bool :=
  f.mode != .readOnly && !f.isFixed

/-- Where a database is kept. One in memory is gone as soon as it is closed. -/
inductive DatabasePlace
  | memory (isWritable : Bool)
  | file (f : DatabaseFile)
  deriving DecidableEq, Repr

/-- The longest path of a database file, in bytes. -/
def longestDatabasePath : Nat := 512

def Address.place? (a : Address) : Option DatabasePlace :=
  a.mode?.bind fun mode =>
    if !Address.storages.contains a.storage then none
    else if mode = .memory || a.path = "" || a.path = ":memory:" then
      some (.memory (mode != .readOnly))
    else if a.storage = "memdb" then some (.memory (mode != .readOnly && !a.isFixed))
    else if (stations a.path).all (·.utf8ByteSize ≤ longestDatabasePath) then
      some (.file ⟨stations a.path, a.model?, mode, a.isFixed⟩)
    else none

def DatabasePlace.ofPath? (path : String) : Option DatabasePlace :=
  (Address.ofPath? path).bind Address.place?

end LiveSheet
