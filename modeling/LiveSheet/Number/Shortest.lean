import LiveSheet.Number.Decimal

namespace LiveSheet

/-- The numbers that read as the float `mantissa * 2 ^ exponent`, in quarters of its last place:
from `low` to `high` around `4 * mantissa`, ends included when the mantissa is even. -/
structure Neighbourhood where
  mantissa : Nat
  exponent : Int

/-- Below a power of two the floats lie twice as dense. -/
def Neighbourhood.low (v : Neighbourhood) : Nat :=
  if v.mantissa = Nat.pow 2 52 ∧ v.exponent ≠ Binary.leastExponent then 4 * v.mantissa - 1
  else 4 * v.mantissa - 2

def Neighbourhood.high (v : Neighbourhood) : Nat :=
  4 * v.mantissa + 2

/-- What a step of `10 ^ place` measures, in a unit that it shares with `quarter place`. -/
def Neighbourhood.step (v : Neighbourhood) (place : Int) : Nat :=
  Nat.pow 10 place.toNat * Nat.pow 2 (2 - v.exponent).toNat

/-- What a quarter of the last place of the float measures, in that unit. -/
def Neighbourhood.quarter (v : Neighbourhood) (place : Int) : Nat :=
  Nat.pow 2 (v.exponent - 2).toNat * Nat.pow 10 (-place).toNat

def Neighbourhood.has (v : Neighbourhood) (digits : Nat) (place : Int) : Bool :=
  let low := v.low * v.quarter place
  let high := v.high * v.quarter place
  let lies := digits * v.step place
  if v.mantissa % 2 = 0 then low ≤ lies && lies ≤ high else low < lies && lies < high

def Neighbourhood.centre (v : Neighbourhood) (place : Int) : Nat :=
  4 * v.mantissa * v.quarter place

def Neighbourhood.floor (v : Neighbourhood) (place : Int) : Nat :=
  v.centre place / v.step place

/-- Of the two neighbours of the float the nearer one, and of two equally near the greater. -/
def Neighbourhood.nearer (v : Neighbourhood) (place : Int) : Nat :=
  if 2 * (v.centre place % v.step place) < v.step place then v.floor place
  else v.floor place + 1

/-- The multiple of `10 ^ place` that reads as the float, the nearer one if both neighbours do. -/
def Neighbourhood.onGrid? (v : Neighbourhood) (place : Int) : Option Nat :=
  match v.has (v.floor place) place, v.has (v.floor place + 1) place with
  | true, true => some (v.nearer place)
  | true, false => some (v.floor place)
  | false, true => some (v.floor place + 1)
  | false, false => none

/-- The coarsest of `steps` finer and finer grids with a number that reads as the float; the last
grid holds the float itself. -/
def Neighbourhood.search (v : Neighbourhood) : Nat → Int → Nat × Int
  | 0, place => (v.floor place, place)
  | steps + 1, place =>
    match v.onGrid? place with
    | some digits => (digits, place)
    | none => v.search steps (place - 1)

/-- The fewest digits that read as the float. The first grid is coarser than the float is large. -/
def Neighbourhood.shortest (v : Neighbourhood) : Nat × Int :=
  let top := (v.mantissa.log2 + v.exponent) * 30103 / 100000 + 2
  v.search (top - min 0 v.exponent).toNat top

/-- The fewest digits that read as the float, with no exponent. -/
def floatText (x : Float) : List Char :=
  match Binary.ofFloat x with
  | .notANumber => "NaN".toList
  | .infinite negative => (if negative then "-inf" else "inf").toList
  | .finite negative mantissa exponent =>
    if mantissa = 0 then (if negative then "-0" else "0").toList
    else
      let found := Neighbourhood.shortest ⟨mantissa, exponent⟩
      Decimal.text ⟨negative, found.1, found.2⟩

end LiveSheet
