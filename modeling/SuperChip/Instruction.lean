-- The instructions of the machine and their two-byte words. Each instruction has exactly one word;
-- the words that belong to none are unknown.
namespace SuperChip

abbrev Register := Fin 16

abbrev Nibble := Fin 16

-- Sixteen has a name as the size of something, so that numerals stand for registers and nibbles in
-- the same way everywhere.
instance neZeroSixteen : @NeZero Nat Zero.ofOfNat0 16 := ⟨by decide⟩

abbrev Address := Fin 4096

inductive Instruction where
  -- 00Cn, 00E0, 00EE, 00FB, 00FC, 00FD, 00FE, 00FF
  | scrollDown (rows : Nibble)
  | clear
  | ret
  | scrollRight
  | scrollLeft
  | exit
  | useMode (super : Bool)
  -- 1nnn, 2nnn, Bnnn
  | jump (target : Address)
  | call (target : Address)
  | jumpPlus (target : Address)
  -- 3xnn, 4xnn, 5xy0, 9xy0
  | skipEq (x : Register) (byte : UInt8)
  | skipNe (x : Register) (byte : UInt8)
  | skipSame (x y : Register)
  | skipDiffer (x y : Register)
  -- 6xnn, 7xnn, Cxnn
  | load (x : Register) (byte : UInt8)
  | increase (x : Register) (byte : UInt8)
  | random (x : Register) (mask : UInt8)
  -- 8xy0 to 8xy7 and 8xyE
  | copy (x y : Register)
  | or (x y : Register)
  | and (x y : Register)
  | xor (x y : Register)
  | add (x y : Register)
  | sub (x y : Register)
  | shiftRight (x y : Register)
  | subFrom (x y : Register)
  | shiftLeft (x y : Register)
  -- Annn, Dxyn
  | point (target : Address)
  | draw (x y : Register) (n : Nibble)
  -- Ex9E, ExA1
  | skipHeld (x : Register)
  | skipFree (x : Register)
  -- Fx07, Fx0A, Fx15, Fx18
  | readDelay (x : Register)
  | waitKey (x : Register)
  | setDelay (x : Register)
  | setSound (x : Register)
  -- Fx1E, Fx29, Fx30, Fx33
  | advance (x : Register)
  | lowGlyph (x : Register)
  | highGlyph (x : Register)
  | digits (x : Register)
  -- Fx55, Fx65, Fx75, Fx85
  | store (x : Register)
  | restore (x : Register)
  | saveFlags (x : Register)
  | loadFlags (x : Register)
  deriving DecidableEq, Repr

-- The fields of a word, from the top: one digit for the family, then x, y and n. The last two
-- digits together are a byte, the last three an address.
namespace Word

def family (w : UInt16) : Nat := w.toNat / 4096

def x (w : UInt16) : Register := Fin.ofNat 16 (w.toNat / 256)

def y (w : UInt16) : Register := Fin.ofNat 16 (w.toNat / 16)

def n (w : UInt16) : Nibble := Fin.ofNat 16 w.toNat

def byte (w : UInt16) : UInt8 := UInt8.ofNat w.toNat

def address (w : UInt16) : Address := Fin.ofNat 4096 w.toNat

-- Four digits make a word.
def ofDigits (a b c d : Nat) : UInt16 := UInt16.ofNat (((a * 16 + b) * 16 + c) * 16 + d)

end Word

namespace Instruction

open Word

-- Words of the first family name one instruction each, but for the scroll, whose last digit is
-- the number of rows.
def ofScreenWord? (w : UInt16) : Option Instruction :=
  if w.toNat / 16 = 0x00C then some (.scrollDown (n w))
  else match w.toNat with
    | 0x0E0 => some .clear
    | 0x0EE => some .ret
    | 0x0FB => some .scrollRight
    | 0x0FC => some .scrollLeft
    | 0x0FD => some .exit
    | 0x0FE => some (.useMode false)
    | 0x0FF => some (.useMode true)
    | _ => none

def ofRegisterWord? (w : UInt16) : Option Instruction :=
  match (n w).val with
  | 0x0 => some (.copy (x w) (y w))
  | 0x1 => some (.or (x w) (y w))
  | 0x2 => some (.and (x w) (y w))
  | 0x3 => some (.xor (x w) (y w))
  | 0x4 => some (.add (x w) (y w))
  | 0x5 => some (.sub (x w) (y w))
  | 0x6 => some (.shiftRight (x w) (y w))
  | 0x7 => some (.subFrom (x w) (y w))
  | 0xE => some (.shiftLeft (x w) (y w))
  | _ => none

def ofKeyWord? (w : UInt16) : Option Instruction :=
  match (byte w).toNat with
  | 0x9E => some (.skipHeld (x w))
  | 0xA1 => some (.skipFree (x w))
  | _ => none

def ofDeviceWord? (w : UInt16) : Option Instruction :=
  match (byte w).toNat with
  | 0x07 => some (.readDelay (x w))
  | 0x0A => some (.waitKey (x w))
  | 0x15 => some (.setDelay (x w))
  | 0x18 => some (.setSound (x w))
  | 0x1E => some (.advance (x w))
  | 0x29 => some (.lowGlyph (x w))
  | 0x30 => some (.highGlyph (x w))
  | 0x33 => some (.digits (x w))
  | 0x55 => some (.store (x w))
  | 0x65 => some (.restore (x w))
  | 0x75 => some (.saveFlags (x w))
  | 0x85 => some (.loadFlags (x w))
  | _ => none

-- The instruction a word stands for, if it stands for one.
def ofWord? (w : UInt16) : Option Instruction :=
  match family w with
  | 0x0 => ofScreenWord? w
  | 0x1 => some (.jump (address w))
  | 0x2 => some (.call (address w))
  | 0x3 => some (.skipEq (x w) (byte w))
  | 0x4 => some (.skipNe (x w) (byte w))
  | 0x5 => if n w = 0 then some (.skipSame (x w) (y w)) else none
  | 0x6 => some (.load (x w) (byte w))
  | 0x7 => some (.increase (x w) (byte w))
  | 0x8 => ofRegisterWord? w
  | 0x9 => if n w = 0 then some (.skipDiffer (x w) (y w)) else none
  | 0xA => some (.point (address w))
  | 0xB => some (.jumpPlus (address w))
  | 0xC => some (.random (x w) (byte w))
  | 0xD => some (.draw (x w) (y w) (n w))
  | 0xE => ofKeyWord? w
  | _ => ofDeviceWord? w

-- The word of an instruction.
def word : Instruction → UInt16
  | scrollDown rows => ofDigits 0 0 0xC rows
  | clear => 0x00E0
  | ret => 0x00EE
  | scrollRight => 0x00FB
  | scrollLeft => 0x00FC
  | exit => 0x00FD
  | useMode super => if super then 0x00FF else 0x00FE
  | jump target => UInt16.ofNat (0x1000 + target)
  | call target => UInt16.ofNat (0x2000 + target)
  | jumpPlus target => UInt16.ofNat (0xB000 + target)
  | skipEq x byte => UInt16.ofNat (0x3000 + x * 256 + byte.toNat)
  | skipNe x byte => UInt16.ofNat (0x4000 + x * 256 + byte.toNat)
  | skipSame x y => ofDigits 5 x y 0
  | skipDiffer x y => ofDigits 9 x y 0
  | load x byte => UInt16.ofNat (0x6000 + x * 256 + byte.toNat)
  | increase x byte => UInt16.ofNat (0x7000 + x * 256 + byte.toNat)
  | random x mask => UInt16.ofNat (0xC000 + x * 256 + mask.toNat)
  | copy x y => ofDigits 8 x y 0
  | or x y => ofDigits 8 x y 1
  | and x y => ofDigits 8 x y 2
  | xor x y => ofDigits 8 x y 3
  | add x y => ofDigits 8 x y 4
  | sub x y => ofDigits 8 x y 5
  | shiftRight x y => ofDigits 8 x y 6
  | subFrom x y => ofDigits 8 x y 7
  | shiftLeft x y => ofDigits 8 x y 0xE
  | point target => UInt16.ofNat (0xA000 + target)
  | draw x y n => ofDigits 0xD x y n
  | skipHeld x => ofDigits 0xE x 9 0xE
  | skipFree x => ofDigits 0xE x 0xA 1
  | readDelay x => ofDigits 0xF x 0 7
  | waitKey x => ofDigits 0xF x 0 0xA
  | setDelay x => ofDigits 0xF x 1 5
  | setSound x => ofDigits 0xF x 1 8
  | advance x => ofDigits 0xF x 1 0xE
  | lowGlyph x => ofDigits 0xF x 2 9
  | highGlyph x => ofDigits 0xF x 3 0
  | digits x => ofDigits 0xF x 3 3
  | store x => ofDigits 0xF x 5 5
  | restore x => ofDigits 0xF x 6 5
  | saveFlags x => ofDigits 0xF x 7 5
  | loadFlags x => ofDigits 0xF x 8 5

end Instruction

end SuperChip
