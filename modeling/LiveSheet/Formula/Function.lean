import LiveSheet.Value
import LiveSheet.Formula.Signature

namespace LiveSheet

/-- The built-in functions, each of which reduces numbers to one. -/
inductive Function
  | min
  | max
  | average
  deriving DecidableEq, Repr

namespace Function

def name : Function → String
  | .min => "min"
  | .max => "max"
  | .average => "average"

def signature (f : Function) : Signature :=
  ⟨f.name, 1, none⟩

def all : List Function :=
  [.min, .max, .average]

def find? (name : String) : Option Function :=
  all.find? fun f => f.name == lowercase name

/-- The smaller number; a not-a-number in the second place is passed over. -/
def lesser (x y : Float) : Float :=
  if y < x then y else x

/-- The greater number; a not-a-number in the second place is passed over. -/
def greater (x y : Float) : Float :=
  if x < y then y else x

/-- The sum starts from the negative zero, which leaves every number as it is. -/
def reduce (f : Function) (xs : List Float) : Float :=
  match f with
  | .min => xs.foldl lesser (1 / 0)
  | .max => xs.foldl greater (-(1 / 0))
  | .average => xs.foldl (· + ·) (-0) / Float.ofNat xs.length

def apply (f : Function) (args : List Value) : Except ConversionError Value :=
  (fun xs => .float (f.reduce xs)) <$> args.mapM Value.asFloat

end Function

def Registry.builtin : Registry :=
  Function.all.map Function.signature

end LiveSheet
