namespace LiveSheet

/-- The exact reading of a float: `mantissa * 2 ^ exponent` with a sign when it is finite. -/
inductive Binary
  | finite (negative : Bool) (mantissa : Nat) (exponent : Int)
  | infinite (negative : Bool)
  | notANumber
  deriving DecidableEq, Repr

def Binary.leastExponent : Int := -1074

def Binary.ofFloat (x : Float) : Binary :=
  let bits : Nat := x.toBits.toNat
  let negative := decide (Nat.pow 2 63 ≤ bits)
  let field : Nat := bits / Nat.pow 2 52 % Nat.pow 2 11
  let fraction : Nat := bits % Nat.pow 2 52
  if field = 2047 then
    if fraction = 0 then .infinite negative else .notANumber
  else if field = 0 then .finite negative fraction leastExponent
  else .finite negative (Nat.pow 2 52 + fraction) (field - 1075)

/-- The exact value of a float that has no fractional part. -/
def Binary.toInt? : Binary → Option Int
  | .finite negative mantissa exponent =>
    let divisor := Nat.pow 2 (-exponent).toNat
    if mantissa % divisor = 0 then
      let magnitude : Int := (mantissa * Nat.pow 2 exponent.toNat / divisor : Nat)
      some (if negative then -magnitude else magnitude)
    else none
  | _ => none

/-- The quotient rounded to the nearest natural number, a half to the even neighbour. -/
def roundHalfEven (num den : Nat) : Nat :=
  let low := num / den
  let twice := 2 * (num % den)
  if twice < den then low
  else if den < twice then low + 1
  else if low % 2 = 0 then low
  else low + 1

/-- The quotient `num / den / 2 ^ exponent` as a fraction of natural numbers. -/
def scaleDown (num den : Nat) (exponent : Int) : Nat × Nat :=
  (num * Nat.pow 2 (-exponent).toNat, den * Nat.pow 2 exponent.toNat)

/-- The exponent at which `num / den` has a mantissa of 53 bits, or the least one. -/
def mantissaExponent (num den : Nat) : Int :=
  let guess := (num.log2 : Int) - den.log2 - 53
  let scaled := scaleDown num den guess
  max Binary.leastExponent (if scaled.1 < Nat.pow 2 53 * scaled.2 then guess else guess + 1)

/-- The bits of the float nearest to the positive fraction `num / den`, of two equally near the
one with an even mantissa. A mantissa that rounds up to the next power of two carries into the
exponent field, and what is past the largest float is infinite. -/
def nearestBits (num den : Nat) : Nat :=
  let exponent := mantissaExponent num den
  let scaled := scaleDown num den exponent
  let significand := roundHalfEven scaled.1 scaled.2
  let bits := (exponent - Binary.leastExponent).toNat * Nat.pow 2 52 + significand
  min bits (2047 * Nat.pow 2 52)

def nearestFloat (negative : Bool) (num den : Nat) : Float :=
  let bits := if num = 0 then 0 else nearestBits num den
  Float.ofBits (UInt64.ofNat (if negative then Nat.pow 2 63 + bits else bits))

end LiveSheet
