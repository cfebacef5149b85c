-- Numbers in hexadecimal, as diagnostics show them.
namespace SuperChip.Text

def hexDigit (n : Nat) : Char := if n < 10 then Char.ofNat (48 + n) else Char.ofNat (55 + n)

-- The digits of a number, most significant first. Zero has one digit.
def hexDigits (n : Nat) : List Char :=
  if n < 16 then [hexDigit n] else hexDigits (n / 16) ++ [hexDigit (n % 16)]
termination_by n

-- Upper-case digits, filled up with zeros on the left to the given width.
def hex (width n : Nat) : String :=
  let ds := hexDigits n
  String.ofList (List.replicate (width - ds.length) '0' ++ ds)

-- The same for numbers with a sign. A minus takes one place of the width.
def hexInt (width : Nat) (n : Int) : String :=
  if n < 0 then "-" ++ hex (width - 1) n.natAbs else hex width n.toNat

end SuperChip.Text
