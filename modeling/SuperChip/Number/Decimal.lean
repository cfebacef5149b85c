import SuperChip.Number.Binary

-- Decimal texts of floating-point numbers: the shortest that reads back, a fixed number of
-- places, and a fixed number of significant digits.
namespace SuperChip.Number

-- The decimal exponent of a positive fraction: the place of its first digit, 0 for units.
def decimalExponent (num den : Nat) : Int :=
  let guess : Int := ((num.log2 : Int) - den.log2) * 30103 / 100000
  let atLeast (e : Int) : Bool := let s := scale 10 num den (-e); s.2 ≤ s.1
  if !atLeast guess then guess - 1 else if atLeast (guess + 1) then guess + 1 else guess

-- A positive decimal: digits * 10 ^ place.
structure Decimal where
  digits : Nat
  place : Int
  deriving DecidableEq, Repr

-- The fraction as a decimal whose last digit stands at the given place.
def roundAt (num den : Nat) (place : Int) : Decimal :=
  let s := scale 10 num den (-place)
  ⟨roundHalfEven s.1 s.2, place⟩

-- Zeros at the end say nothing. At most as many are dropped as the fuel allows.
def dropZeros : Nat → Decimal → Decimal
  | 0, d => d
  | fuel + 1, d =>
    if d.digits ≠ 0 ∧ d.digits % 10 = 0 then dropZeros fuel ⟨d.digits / 10, d.place + 1⟩ else d

-- The numbers that read back as mantissa * 2 ^ exponent reach half a step to either side, but
-- only a quarter of a step down where the steps below are finer. Both ends are given in quarters.
def lowerEnd (mantissa : Nat) (exponent : Int) : Nat :=
  if mantissa = Nat.pow 2 52 ∧ exponent ≠ lowestExponent then 4 * mantissa - 1 else 4 * mantissa - 2

def upperEnd (mantissa : Nat) : Nat := 4 * mantissa + 2

-- Whether a decimal reads back as the given number. The ends themselves round to an even mantissa.
def readsBack (mantissa : Nat) (exponent : Int) (d : Decimal) : Bool :=
  let value := scale 10 d.digits 1 d.place
  let unit := scale 2 1 1 (exponent - 2)
  let middle := value.1 * unit.2
  let low := lowerEnd mantissa exponent * unit.1 * value.2
  let high := upperEnd mantissa * unit.1 * value.2
  if mantissa % 2 = 0 then low ≤ middle && middle ≤ high else low < middle && middle < high

-- The two decimals around the fraction with the last digit at the given place, nearest first.
def around (num den : Nat) (place : Int) : List Decimal :=
  let s := scale 10 num den (-place)
  let near := roundHalfEven s.1 s.2
  let below := s.1 / s.2
  [⟨near, place⟩, ⟨if near = below then below + 1 else below, place⟩]

-- The shortest decimal that reads back, and the nearest of those. Seventeen digits always do.
def shortest (mantissa : Nat) (exponent : Int) : Decimal :=
  let v := scale 2 mantissa 1 exponent
  let top := decimalExponent v.1 v.2
  let candidates := (List.range 17).flatMap fun more : Nat => around v.1 v.2 (top - (more : Int))
  dropZeros 20 ((candidates.find? (readsBack mantissa exponent)).getD (roundAt v.1 v.2 (top - 16)))

def digitText (n : Nat) : List Char := Nat.toDigits 10 n

-- Digits with the point where it belongs, and zeros to reach it.
def positional (d : Decimal) : String :=
  let ds := digitText d.digits
  if 0 ≤ d.place then String.ofList (ds ++ List.replicate d.place.toNat '0')
  else
    let places := (-d.place).toNat
    let ds := List.replicate (places + 1 - ds.length) '0' ++ ds
    String.ofList (ds.take (ds.length - places) ++ '.' :: ds.drop (ds.length - places))

-- One digit, the others behind a point, and the exponent with a sign and at least two digits.
def scientific (d : Decimal) : String :=
  let ds := digitText d.digits
  let e : Int := d.place + (ds.length - 1 : Nat)
  let fraction := if ds.length ≤ 1 then [] else '.' :: ds.drop 1
  let exponent := digitText e.natAbs
  String.ofList (ds.take 1 ++ fraction ++ ['e', if e < 0 then '-' else '+']
    ++ List.replicate (2 - exponent.length) '0' ++ exponent)

-- The place of the first digit.
def leadingPlace (d : Decimal) : Int := d.place + ((digitText d.digits).length - 1 : Nat)

def signText (negative : Bool) : String := if negative then "-" else ""

-- The shortest text: with a point and at least one digit behind it from 0.0001 up to sixteen
-- digits before the point, and with an exponent outside.
def shortestText (f : Float) : String :=
  match parts f with
  | .nan => "nan"
  | .infinite negative => signText negative ++ "inf"
  | .finite negative mantissa exponent =>
    signText negative ++
      if mantissa = 0 then "0.0"
      else
        let d := shortest mantissa exponent
        if -4 ≤ leadingPlace d ∧ leadingPlace d < 16 then
          if 0 ≤ d.place then positional d ++ ".0" else positional d
        else scientific d

-- Six significant digits at most, without zeros at the end; with an exponent below 0.0001 and
-- from a million on.
def generalText (f : Float) : String :=
  match parts f with
  | .nan => "nan"
  | .infinite negative => signText negative ++ "inf"
  | .finite negative mantissa exponent =>
    signText negative ++
      if mantissa = 0 then "0"
      else
        let v := scale 2 mantissa 1 exponent
        let d := dropZeros 6 (roundAt v.1 v.2 (decimalExponent v.1 v.2 - 5))
        if -4 ≤ leadingPlace d ∧ leadingPlace d < 6 then positional d else scientific d

-- A fixed number of places behind the point.
def fixedText (places : Nat) (f : Float) : String :=
  match parts f with
  | .nan => "nan"
  | .infinite negative => signText negative ++ "inf"
  | .finite negative mantissa exponent =>
    let v := scale 2 mantissa 1 exponent
    signText negative ++ positional (roundAt v.1 v.2 (-places))

end SuperChip.Number
