import SuperChip.Position

-- The 4096 bytes a machine works in. Addresses wrap: the byte after the last is the first.
namespace SuperChip

abbrev Memory := Vector UInt8 4096

namespace Memory

theorem size_pos : 0 < 4096 := by decide

def read (ram : Memory) (address : Int) : UInt8 := ram[onRing 4096 size_pos address]

def write (ram : Memory) (address : Int) (byte : UInt8) : Memory :=
  ram.set (onRing 4096 size_pos address) byte

-- Bytes written one after another from a starting address.
def writeAll (ram : Memory) (start : Int) : List UInt8 → Memory
  | [] => ram
  | byte :: rest => (ram.write start byte).writeAll (start + 1) rest

-- Instruction words have their high byte first.
def readWord (ram : Memory) (address : Int) : UInt16 :=
  (ram.read address).toUInt16 * 256 + (ram.read (address + 1)).toUInt16

def blank : Memory := Vector.replicate 4096 0

theorem read_write (ram : Memory) (a b : Int) (byte : UInt8) :
    (ram.write a byte).read b = if a % 4096 = b % 4096 then byte else ram.read b := by
  simp only [read, write, Fin.getElem_fin, Vector.getElem_set, val_onRing_eq_iff]
  rfl

end Memory

end SuperChip
