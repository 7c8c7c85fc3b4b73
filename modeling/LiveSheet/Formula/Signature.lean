import LiveSheet.Text.Casing

namespace LiveSheet

/-- What is known of a function without calling it: its name and how many arguments it takes. -/
structure Signature where
  name : String
  minArgs : Nat
  maxArgs : Option Nat
  deriving DecidableEq, Repr

def Signature.accepts (s : Signature) (count : Nat) : Bool :=
  s.minArgs ≤ count && s.maxArgs.all (count ≤ ·)

def Signature.expected (s : Signature) : String :=
  match s.maxArgs with
  | some most =>
    if most = s.minArgs then s!"{most}" else s!"{s.minArgs} to {most}"
  | none => s!"at least {s.minArgs}"

/-- Functions by name; the case of letters makes no difference to a name. -/
abbrev Registry := List Signature

def Registry.find? (r : Registry) (name : String) : Option Signature :=
  List.find? (fun s => lowercase s.name == lowercase name) r

/-- A function takes the place of one registered under the same name. -/
def Registry.register (r : Registry) (s : Signature) : Registry :=
  s :: r.filter fun other => lowercase other.name != lowercase s.name

def Registry.names (r : Registry) : List String :=
  (r.map Signature.name).mergeSort (· ≤ ·)

end LiveSheet
