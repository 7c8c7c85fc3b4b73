namespace LiveSheet

def upward : List Char :=
  ['.', '.']

/-- The parts of a path between its slashes, without empty ones and those that stay in place. -/
def pathParts (path : List Char) : List (List Char) :=
  (path.splitOnP (· == '/')).filter fun part => !part.isEmpty && part != ['.']

/-- What follows the last dot of a file name, unless the name starts with that dot. -/
def nameExtension? (name : List Char) : Option (List Char) :=
  let ending := name.reverse.takeWhile (· != '.')
  if ending.length + 1 < name.length then some ending.reverse else none

def extension? (path : String) : Option String :=
  match (pathParts path.toList).getLast? with
  | some name => if name = upward then none else (nameExtension? name).map String.ofList
  | none => none

end LiveSheet
