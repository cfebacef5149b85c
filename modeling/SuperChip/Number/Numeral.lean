import SuperChip.Number.Binary
import SuperChip.Text.Digit

-- Reading numbers: whole ones and floating-point ones. Digits of any script count, blanks may stand
-- around the number, and single underscores may stand between digits.
namespace SuperChip.Number

open Text

-- The text with its digits made plain and the blanks around it taken away.
def plain (s : String) : List Char :=
  let cs := (s.toList.dropWhile isNumberBlank).reverse.dropWhile isNumberBlank
  cs.reverse.map fun c => match digitValue? c with
    | some value => Char.ofNat (48 + value)
    | none => c

-- A sign in front of a number.
def splitSign : List Char → Bool × List Char
  | '-' :: rest => (true, rest)
  | '+' :: rest => (false, rest)
  | cs => (false, cs)

-- Underscores are dropped if each has a digit on either side.
def dropUnderscores : List Char → Option (List Char)
  | [] => some []
  | ['_'] => none
  | [c] => some [c]
  | '_' :: _ :: _ => none
  | c :: '_' :: d :: rest =>
    if c.isDigit && d.isDigit then (dropUnderscores (d :: rest)).map (c :: ·) else none
  | c :: rest => (dropUnderscores rest).map (c :: ·)

def digitsValue (ds : List Char) : Nat := ds.foldl (fun n c => 10 * n + (c.toNat - 48)) 0

-- Numbers with more digits than this are refused, to bound the work of reading one.
def maxDigits : Nat := 4300

def readInt? (s : String) : Option Int := do
  let (negative, cs) := splitSign (plain s)
  let ds ← dropUnderscores cs
  if ds.isEmpty || !ds.all Char.isDigit || ds.length > maxDigits then none
  else return if negative then -digitsValue ds else digitsValue ds

-- The number digits * 10 ^ e, where digits has no more than count digits. Far outside the range of
-- floating-point numbers the power is not worked out.
def ofScientific (negative : Bool) (digits count : Nat) (e : Int) : Float :=
  if digits = 0 ∨ e + count < -400 then nearest negative 0 1
  else if e > 400 then nearest negative (Nat.pow 10 400) 1
  else
    let s := scale 10 digits 1 e
    nearest negative s.1 s.2

-- The exponent behind the digits of a number; without one it is zero.
def readExponent? : List Char → Option Int
  | [] => some 0
  | c :: rest =>
    if c = 'e' ∨ c = 'E' then
      let (negative, ds) := splitSign rest
      if ds.isEmpty || !ds.all Char.isDigit then none
      else some (if negative then -digitsValue ds else digitsValue ds)
    else none

def readUnsigned? (negative : Bool) (cs : List Char) : Option Float :=
  let word := String.ofList (cs.map Char.toLower)
  if word = "inf" || word = "infinity" then some (nearest negative (Nat.pow 2 1024) 1)
  else if word = "nan" then some (Float.ofBits 0x7FF8000000000000)
  else do
    let whole := cs.takeWhile Char.isDigit
    let rest := cs.dropWhile Char.isDigit
    let (fraction, rest) := match rest with
      | '.' :: rest => (rest.takeWhile Char.isDigit, rest.dropWhile Char.isDigit)
      | rest => ([], rest)
    if whole.isEmpty && fraction.isEmpty then none
    else
      let e ← readExponent? rest
      let ds := whole ++ fraction
      return ofScientific negative (digitsValue ds) ds.length (e - fraction.length)

def readFloat? (s : String) : Option Float := do
  let cs ← dropUnderscores (plain s)
  let (negative, cs) := splitSign cs
  readUnsigned? negative cs

end SuperChip.Number
