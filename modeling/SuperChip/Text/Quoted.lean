import SuperChip.Text.Hex
import SuperChip.Text.Printable

-- Text between quotes, as diagnostics show it: on one line, with every character visible.
namespace SuperChip.Text

-- Single quotes, unless the text has one and no double quote.
def quoteOf (cs : List Char) : Char := if cs.contains '\'' && !cs.contains '"' then '"' else '\''

def lowerHex (width n : Nat) : List Char := (hex width n).toList.map Char.toLower

-- One character as it stands between the given quotes.
def escape (quote c : Char) : List Char :=
  if c = quote ∨ c = '\\' then ['\\', c]
  else if c = '\t' then ['\\', 't']
  else if c = '\n' then ['\\', 'n']
  else if c = '\r' then ['\\', 'r']
  else if isPrintable c then [c]
  else if c.toNat < 0x100 then '\\' :: 'x' :: lowerHex 2 c.toNat
  else if c.toNat < 0x10000 then '\\' :: 'u' :: lowerHex 4 c.toNat
  else '\\' :: 'U' :: lowerHex 8 c.toNat

def quoted (s : String) : String :=
  let quote := quoteOf s.toList
  String.ofList (quote :: s.toList.flatMap (escape quote) ++ [quote])

end SuperChip.Text
