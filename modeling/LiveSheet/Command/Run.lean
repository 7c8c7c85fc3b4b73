import LiveSheet.Command.Arguments
import LiveSheet.Command.Plan

namespace LiveSheet

def evaluateAlone (formula : String) : Report :=
  match (Procedure.createCell none (some formula)).onSheet (Sheet.new Settings.default) with
  | .error e => .failure "" ⟨e.message, []⟩
  | .ok (id, s) =>
    match s.cell id with
    | .error e => .failure "" ⟨e.message, []⟩
    | .ok c =>
      match c.read with
      | .ok v => .success (v.asText ++ "\n") ""
      | .error e => .failure "" ⟨e.text, []⟩

namespace Sheet

/-- Gives the cell with a name a formula, and creates it if there is none. -/
def assign (s : Sheet) (name formula : String) : Except Failure (CellId × Sheet) :=
  match s.idOf? name with
  | some id =>
    match (Procedure.setFormula id formula).onSheet s with
    | .ok ((), s) => .ok (id, s)
    | .error e => .error ⟨e.message, []⟩
  | none =>
    match (Procedure.createCell (some name) (some formula)).onSheet s with
    | .ok made => .ok made
    | .error e => .error ⟨s!"Failed to create cell '{name}'", [e.message]⟩

end Sheet

/-- Assigns a formula in a file and writes the sheet to the output, by default the same file. -/
def assignIn (file cell formula : String) (output : Option String) : Plan :=
  .load file fun s positions =>
    match s.assign cell formula with
    | .error f => .finish (.failure "" f)
    | .ok (id, s) =>
      match s.cell id with
      | .error e => .finish (.failure "" ⟨e.message, []⟩)
      | .ok c => .save s positions (output.getD file) s!"{c.name} = {c.summary}\n"

def Command.plan : Command → Plan
  | .evaluate formula => .finish (evaluateAlone formula)
  | .overview file => .load file fun s _ => .finish (s.overview file)
  | .order file => .load file fun s _ => .finish s.orderListing
  | .assign file cell formula output => assignIn file cell formula output

def planOfLine (words : List String) : Plan :=
  match Command.ofLine words with
  | some command => command.plan
  | none => .finish .misuse

end LiveSheet
