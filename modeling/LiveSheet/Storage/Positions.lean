namespace LiveSheet

/-- Where cells are shown, by name in ascending order. -/
abbrev Positions := List (String × Float × Float)

/-- A later position of a name takes the place of an earlier one. -/
def Positions.insert (name : String) (place : Float × Float) : Positions → Positions
  | [] => [(name, place)]
  | (other, at_) :: rest =>
    if name < other then (name, place) :: (other, at_) :: rest
    else if name = other then (name, place) :: rest
    else (other, at_) :: Positions.insert name place rest

def Positions.ofList (entries : List (String × Float × Float)) : Positions :=
  entries.foldl (fun positions entry => Positions.insert entry.1 entry.2 positions) []

end LiveSheet
