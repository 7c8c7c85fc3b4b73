import LiveSheet.Command.Run
import LiveSheet.Simulation.Database

namespace LiveSheet

def findFile (path : String) : IO Bool := do
  try
    discard (IO.FS.Handle.mk path .read)
    return true
  catch _ => return false

def answerOf {α : Type} (action : IO α) : IO (Except String α) := do
  try return .ok (← action) catch e => return .error (toString e)

/-- There is no database engine at hand, so the text of a database is in its file. -/
def queryFile (path : String) : IO (Option (Document × List (String × Float × Float))) := do
  match ← answerOf (IO.FS.readFile path) with
  | .ok text => return (Database.parse? text).map fun d => (d.document, d.positions)
  | .error _ => return none

def insertFile (path : String) (document : Document) (positions : Positions) : IO Bool := do
  match Database.make document positions with
  | .ok d => return (← answerOf (IO.FS.writeFile path d.render)).toOption.isSome
  | .error _ => return false

def Plan.perform : Plan → IO Report
  | .finish report => return report
  | .find path next => do (next (← findFile path)).perform
  | .read path next => do (next (← answerOf (IO.FS.readFile path))).perform
  | .write path text next => do (next (← answerOf (IO.FS.writeFile path text))).perform
  | .remove path next => do (next (← answerOf (IO.FS.removeFile path))).perform
  | .query path next => do (next (← queryFile path)).perform
  | .insert path document positions next => do
    (next (← insertFile path document positions)).perform

end LiveSheet

def main (words : List String) : IO UInt32 := do
  let report ← (LiveSheet.planOfLine words).perform
  IO.print report.output
  IO.eprint report.notice
  return report.code.toUInt32
