-- The exact values of floating-point numbers: taking one apart, and the one nearest to a fraction.
namespace SuperChip.Number

-- What a floating-point number stands for. Of a finite one the size is mantissa * 2 ^ exponent.
inductive Parts where
  | nan
  | infinite (negative : Bool)
  | finite (negative : Bool) (mantissa : Nat) (exponent : Int)
  deriving DecidableEq, Repr

-- The lowest exponent, which numbers too small for a full mantissa share.
def lowestExponent : Int := -1074

def parts (f : Float) : Parts :=
  let bits := f.toBits.toNat
  let negative := bits / Nat.pow 2 63 = 1
  let field := bits / Nat.pow 2 52 % Nat.pow 2 11
  let fraction := bits % Nat.pow 2 52
  if field = 2047 then
    if fraction = 0 then .infinite negative else .nan
  else if field = 0 then .finite negative fraction lowestExponent
  else .finite negative (Nat.pow 2 52 + fraction) (lowestExponent + (field - 1 : Nat))

-- A quotient rounded to a whole number. Half goes to the even neighbour.
def roundHalfEven (num den : Nat) : Nat :=
  let whole := num / den
  let twice := 2 * (num % den)
  if twice < den ∨ twice = den ∧ whole % 2 = 0 then whole else whole + 1

-- The fraction num / den multiplied by base ^ e, again as a fraction.
def scale (base num den : Nat) (e : Int) : Nat × Nat :=
  if 0 ≤ e then (num * Nat.pow base e.toNat, den) else (num, den * Nat.pow base (-e).toNat)

-- The exponent that gives the quotient a mantissa of 53 bits, or the lowest one.
def exponentFor (num den : Nat) : Int :=
  let guess : Int := (num.log2 : Int) - den.log2 - 52
  let s := scale 2 num den (-guess)
  let e := if s.1 < s.2 * Nat.pow 2 52 then guess - 1 else guess
  max e lowestExponent

-- The floating-point number nearest to a fraction; of two equally near ones the one with the even
-- mantissa, and infinity for what is too large.
def nearest (negative : Bool) (num den : Nat) : Float :=
  let sign := if negative then Nat.pow 2 63 else 0
  if num = 0 then Float.ofBits (UInt64.ofNat sign)
  else
    let e := exponentFor num den
    let s := scale 2 num den (-e)
    let mantissa := roundHalfEven s.1 s.2
    let bits := (e - lowestExponent).toNat * Nat.pow 2 52 + mantissa
    Float.ofBits (UInt64.ofNat (sign + min bits (2047 * Nat.pow 2 52)))

def ofInt (n : Int) : Float := nearest (n < 0) n.natAbs 1

-- A whole number rounded to 53 bits, which is the value of the floating-point number nearest to it
-- unless it is too large for any.
def nearestWhole (n : Nat) : Nat :=
  let e := exponentFor n 1
  if e ≤ 0 then n else roundHalfEven n (Nat.pow 2 e.toNat) * Nat.pow 2 e.toNat

-- The whole part of a finite number, with what follows the point cut off.
def truncate (negative : Bool) (mantissa : Nat) (exponent : Int) : Int :=
  let s := scale 2 mantissa 1 exponent
  if negative then -((s.1 / s.2 : Nat) : Int) else (s.1 / s.2 : Nat)

end SuperChip.Number
