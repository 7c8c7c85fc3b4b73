import LiveSheet.Number.Binary

namespace LiveSheet

/-- A number written with decimal digits: `digits * 10 ^ exponent` with a sign. -/
structure Decimal where
  negative : Bool
  digits : Nat
  exponent : Int
  deriving DecidableEq, Repr

def ofDigits (cs : List Char) : Nat :=
  cs.foldl (fun n c => 10 * n + (c.toNat - '0'.toNat)) 0

/-- Splits off a leading sign; the flag says whether it is a minus. -/
def splitSign : List Char → Bool × List Char
  | '-' :: rest => (true, rest)
  | '+' :: rest => (false, rest)
  | cs => (false, cs)

/-- Reads an optional sign and at least one digit, with nothing after them. -/
def readInt? (cs : List Char) : Option Int :=
  let signed := splitSign cs
  if signed.2.isEmpty || !signed.2.all Char.isDigit then none
  else some (if signed.1 then -(ofDigits signed.2 : Int) else ofDigits signed.2)

/-- Reads what may follow the digits of a number: nothing, or an exponent. -/
def readExponent? : List Char → Option Int
  | [] => some 0
  | c :: rest => if c = 'e' || c = 'E' then readInt? rest else none

def splitPlaces : List Char → List Char × List Char
  | '.' :: rest => (rest.takeWhile Char.isDigit, rest.dropWhile Char.isDigit)
  | cs => ([], cs)

/-- Reads digits with at most one point among, before or after them, and an optional exponent. -/
def readUnsigned? (negative : Bool) (cs : List Char) : Option Decimal :=
  let whole := cs.takeWhile Char.isDigit
  let behind := splitPlaces (cs.dropWhile Char.isDigit)
  if whole.isEmpty && behind.1.isEmpty then none
  else (readExponent? behind.2).map fun exponent =>
    ⟨negative, ofDigits (whole ++ behind.1), exponent - behind.1.length⟩

def Decimal.read? (cs : List Char) : Option Decimal :=
  readUnsigned? (splitSign cs).1 (splitSign cs).2

/-- The nearest float. No float lies beyond four hundred places on either side of the point, so
such numbers are settled without computing their powers of ten. -/
def Decimal.toFloat (d : Decimal) : Float :=
  let places : Int := (Nat.toDigits 10 d.digits).length + d.exponent
  if d.digits = 0 || places < -400 then nearestFloat d.negative 0 1
  else if 400 < places then nearestFloat d.negative (Nat.pow 10 400) 1
  else
    nearestFloat d.negative (d.digits * Nat.pow 10 d.exponent.toNat)
      (Nat.pow 10 (-d.exponent).toNat)

/-- The digits with a point `places` before their end, and zeros where digits are missing. -/
def placePoint (ds : List Char) (places : Nat) : List Char :=
  if places = 0 then ds
  else if places < ds.length then
    ds.take (ds.length - places) ++ '.' :: ds.drop (ds.length - places)
  else '0' :: '.' :: List.replicate (places - ds.length) '0' ++ ds

def Decimal.text (d : Decimal) : List Char :=
  let ds := Nat.toDigits 10 d.digits ++ List.replicate d.exponent.toNat '0'
  (if d.negative then ['-'] else []) ++ placePoint ds (-d.exponent).toNat

def sameLetters (cs ds : List Char) : Bool :=
  cs.map Char.toLower == ds.map Char.toLower

def readWord? (negative : Bool) (cs : List Char) : Option Float :=
  if sameLetters cs "inf".toList || sameLetters cs "infinity".toList then
    some (if negative then -(1 / 0) else 1 / 0)
  else if sameLetters cs "nan".toList then some (0 / 0)
  else none

def readFloat? (cs : List Char) : Option Float :=
  match Decimal.read? cs with
  | some d => some d.toFloat
  | none => readWord? (splitSign cs).1 (splitSign cs).2

end LiveSheet
