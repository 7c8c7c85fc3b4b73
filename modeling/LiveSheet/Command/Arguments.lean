namespace LiveSheet

/-- What a command line asks for. -/
inductive Command
  | evaluate (formula : String)
  | overview (file : String)
  | order (file : String)
  | assign (file cell formula : String) (output : Option String)
  deriving DecidableEq, Repr

inductive Argument
  | operand (text : String)
  | verbose
  | output (file : String)
  | outputNext
  deriving DecidableEq, Repr

namespace Argument

/-- The options in a word of letters after one dash. A file stands directly behind its letter,
maybe after an equals sign, or in the next word. -/
def ofLetters : List Char → Option (List Argument)
  | [] => some []
  | 'v' :: rest => (ofLetters rest).map (.verbose :: ·)
  | ['o'] => some [.outputNext]
  | 'o' :: '=' :: file => some [.output (String.ofList file)]
  | 'o' :: file => some [.output (String.ofList file)]
  | _ => none

def ofLongName (name : List Char) : Option Argument :=
  let value := (name.dropWhile (· != '=')).drop 1
  if name = "verbose".toList then some .verbose
  else if name = "output".toList then some .outputNext
  else if "output=".toList.isPrefixOf name then some (.output (String.ofList value))
  else none

def ofWord (word : String) : Option (List Argument) :=
  match word.toList with
  | '-' :: '-' :: name => (ofLongName name).map ([·])
  | '-' :: c :: letters => ofLetters (c :: letters)
  | _ => some [.operand word]

end Argument

structure Arguments where
  operands : List String
  outputs : List String
  verbosity : Nat
  deriving DecidableEq, Repr

namespace Arguments

def none : Arguments :=
  ⟨[], [], 0⟩

def addOperand (text : String) (a : Arguments) : Arguments :=
  { a with operands := text :: a.operands }

def addOutput (file : String) (a : Arguments) : Arguments :=
  { a with outputs := file :: a.outputs }

def addVerbose (a : Arguments) : Arguments :=
  { a with verbosity := a.verbosity + 1 }

def gather : List Argument → Option Arguments
  | [] => some none
  | .operand text :: rest => (gather rest).map (addOperand text)
  | .verbose :: rest => (gather rest).map addVerbose
  | .output file :: rest => (gather rest).map (addOutput file)
  | .outputNext :: .operand file :: rest => (gather rest).map (addOutput file)
  | .outputNext :: _ => Option.none

/-- Sorts the words after the name of a command. Behind two dashes every word is an operand; no
option may stand twice, and no file name is empty. -/
def ofWords (words : List String) : Option Arguments := do
  let options ← (words.takeWhile (· != "--")).mapM Argument.ofWord
  let a ← gather options.flatten
  if a.verbosity ≤ 1 ∧ a.outputs.length ≤ 1 ∧ "" ∉ a.outputs then
    some { a with operands := a.operands ++ (words.dropWhile (· != "--")).drop 1 }
  else Option.none

end Arguments

namespace Command

def ofFile (make : String → Command) (a : Arguments) : Option Command :=
  match a.operands, a.outputs with
  | [file], [] => if file = "" then none else some (make file)
  | _, _ => none

def ofArguments (name : String) (a : Arguments) : Option Command :=
  match name with
  | "eval" =>
    match a.operands, a.outputs with
    | [formula], [] => some (.evaluate formula)
    | _, _ => none
  | "show" => ofFile .overview a
  | "order" => ofFile .order a
  | "set" =>
    match a.operands with
    | [file, cell, formula] =>
      if file = "" then none else some (.assign file cell formula a.outputs.head?)
    | _ => none
  | _ => none

def ofWords : List String → Option Command
  | name :: words => (Arguments.ofWords words).bind (ofArguments name)
  | [] => none

/-- The command of a command line. Verbosity may be asked for before the name of the command as
well, and changes nothing that a command does. -/
def ofLine (words : List String) : Option Command :=
  match words with
  | word :: rest => ofWords (if word = "-v" ∨ word = "--verbose" then rest else words)
  | [] => none

end Command

end LiveSheet
