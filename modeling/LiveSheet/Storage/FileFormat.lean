import LiveSheet.Text.Casing
import LiveSheet.Storage.Path

namespace LiveSheet

inductive FileFormat
  | json
  | database
  deriving DecidableEq, Repr

/-- The extension alone tells the format, in letters of either case. -/
def FileFormat.ofPath? (path : String) : Option FileFormat :=
  match (extension? path).map lowercase with
  | some "json" => some .json
  | some "db" | some "sqlite" => some .database
  | _ => none

end LiveSheet
