import LiveSheet.Sheet.Basic
import LiveSheet.Storage.Document

namespace LiveSheet

/-- Why a command fails, and what lies behind that, the nearest cause first. -/
structure Failure where
  message : String
  causes : List String
  deriving DecidableEq, Repr

/-- A text whose first line follows a mark and whose other lines follow a margin. -/
def indented (mark margin : List Char) (text : List Char) : List Char :=
  mark ++ text.flatMap fun c => if c = '\n' then '\n' :: margin else [c]

def numberedCause (n : Nat) (cause : String) : List Char :=
  let digits := Nat.toDigits 10 n
  indented (List.replicate (5 - digits.length) ' ' ++ digits ++ [':', ' '])
    (List.replicate 7 ' ') cause.toList

namespace Failure

def causeLines (f : Failure) : List (List Char) :=
  match f.causes with
  | [cause] => [indented (List.replicate 4 ' ') (List.replicate 4 ' ') cause.toList]
  | causes => causes.mapIdx numberedCause

def text (f : Failure) : String :=
  let causes := if f.causes.isEmpty then [] else "\n\nCaused by:".toList ++
    f.causeLines.flatMap fun line => '\n' :: line
  s!"Error: {f.message}" ++ String.ofList causes ++ "\n"

end Failure

/-- What a command writes to its two streams, and its exit code. -/
structure Report where
  output : String
  notice : String
  code : Nat
  deriving DecidableEq, Repr

namespace Report

def success (output notice : String) : Report :=
  ⟨output, notice, 0⟩

/-- The report of a command that fails after some output. -/
def failure (output : String) (f : Failure) : Report :=
  ⟨output, f.text, 1⟩

def misuse : Report :=
  ⟨"", "Usage: [-v] eval FORMULA | show FILE | order FILE | set FILE CELL FORMULA [-o FILE]\n", 2⟩

end Report

/-- The chain of causes that ends in a storage error. -/
def StorageError.causes (e : StorageError) : List String :=
  e.message :: e.cause?.toList

/-- A cell in a few words: its value, its error or the size of its table. -/
def Cell.summary (c : Cell) : String :=
  match c.grid? with
  | some grid => s!"table {grid.rows}x{grid.cols}"
  | none =>
    match c.read with
    | .ok v => v.asText
    | .error e => s!"#ERROR ({e.text})"

def padded (width : Nat) (text : String) : String :=
  text ++ String.ofList (List.replicate (width - text.length) ' ')

namespace Sheet

def nameWidth (s : Sheet) : Nat :=
  (s.cells.map fun c => c.name.utf8ByteSize).foldl max 0

def overviewLine (width : Nat) (c : Cell) : String :=
  s!"{padded width c.name}  {padded 24 c.formula}  {c.summary}\n"

def overview (s : Sheet) (file : String) : Report :=
  let lines := s.cells.map (overviewLine s.nameWidth)
  let errors := s.cells.countP Cell.hasError
  .success (s!"File: {file}\nCells: {s.cells.length}\n\n" ++ String.join lines)
    (if errors = 0 then "" else s!"{errors} cell(s) in error\n")

def orderListing (s : Sheet) : Report :=
  .success (String.join (s.evaluationOrder.map fun id => s.displayName id ++ "\n")) ""

end Sheet

end LiveSheet
