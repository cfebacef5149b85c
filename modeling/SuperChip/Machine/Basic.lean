import SuperChip.Mode
import SuperChip.Canvas
import SuperChip.Frame
import SuperChip.Instruction
import SuperChip.Machine.Font
import SuperChip.Machine.Memory
import SuperChip.Text.Hex

-- The machine: memory, registers, stack, timers, keypad and canvas, how it is switched on, how a
-- program is put into it, and how it is reset.
namespace SuperChip

-- Programs lie behind the fonts and may fill the rest of memory.
def programStart : Nat := 0x200

def maxRomSize : Nat := 4096 - programStart

-- Addresses, the stack pointer and the timers are kept as numbers without a bound, and the keys and
-- the flags as lists of any length: somebody from outside may put anything there. A machine that was
-- switched on and only ever ran keeps all of them in their bounds, and memory is read through
-- wrapped addresses in any case.
structure Machine where
  mode : Mode
  -- the last instruction word, for diagnostics
  word : UInt16
  ram : Memory
  v : Vector UInt8 16
  index : Int
  pc : Int
  -- the slot at sp is the next free one
  stack : Vector Int 16
  sp : Int
  delay : Int
  sound : Int
  -- sixteen keys and eight flags
  keys : List Bool
  flags : List UInt8
  canvas : Canvas 128 64
  -- set when the picture has changed, until somebody has taken the picture
  redraw : Bool
  -- the program as loaded, kept for resets
  rom : Array UInt8
  -- how many bytes have been drawn from the source of randomness
  rolls : Nat
  deriving DecidableEq

-- Randomness comes from outside: the byte of each draw, counted from zero.
abbrev Dice := Nat → UInt8

-- Why an instruction could not be executed.
inductive Fault where
  | unknownWord (word : UInt16) (address : Int)
  -- the key list ends before the key that was asked for
  | missingKey
  -- the stack pointer is on no slot of the stack
  | noSlot
  -- there is no such register, or no such flag
  | noByte
  -- a number that is no machine word names no place at all
  | noWord
  -- a number that no register can hold
  | tooLarge
  deriving DecidableEq, Repr

def Fault.message : Fault → String
  | .unknownWord word address =>
    s!"Unknown opcode ${Text.hex 4 word.toNat} at ${Text.hexInt 3 address}"
  | .missingKey => "list index out of range"
  | .noSlot => "list assignment index out of range"
  | .noByte => "bytearray index out of range"
  | .noWord => "cannot fit 'int' into an index-sized integer"
  | .tooLarge => "byte must be in range(0, 256)"

structure RomTooLarge where
  size : Nat
  deriving DecidableEq, Repr

def RomTooLarge.message (e : RomTooLarge) : String :=
  s!"ROM is {e.size} bytes; at most {maxRomSize} bytes fit into memory"

-- Memory at power-on holds the two fonts and zeros.
def Memory.withFonts : Memory :=
  (Memory.blank.writeAll Font.lowStart Font.low).writeAll Font.highStart Font.high

namespace Machine

def powerOn : Machine where
  mode := .standard
  word := 0
  ram := .withFonts
  v := .replicate 16 0
  index := 0
  pc := programStart
  stack := .replicate 16 0
  sp := 0
  delay := 0
  sound := 0
  keys := .replicate 16 false
  flags := List.replicate 8 0
  canvas := .dark
  redraw := false
  rom := #[]
  rolls := 0

-- The program in memory and remembered.
def withRom (m : Machine) (rom : Array UInt8) : Machine :=
  { m with rom, ram := m.ram.writeAll programStart rom.toList }

-- A program that does not fit is refused and changes nothing.
def load (m : Machine) (rom : Array UInt8) : Except RomTooLarge Machine :=
  if rom.size > maxRomSize then .error ⟨rom.size⟩ else .ok (m.withRom rom)

-- Back to power-on with the same program. Only the place in the source of randomness is kept.
def reset (m : Machine) : Machine := { powerOn.withRom m.rom with rolls := m.rolls }

-- A beep is to be heard while the sound timer runs.
def beeping (m : Machine) : Bool := m.sound > 0

-- A timer that is above zero counts down by one.
def countDown (timer : Int) : Int := if timer > 0 then timer - 1 else timer

def tick (m : Machine) : Machine :=
  { m with delay := countDown m.delay, sound := countDown m.sound }

-- An independent copy of the whole canvas.
def snapshot (m : Machine) : Frame := ⟨128, 64, m.canvas⟩

def describe (m : Machine) : String :=
  s!"Interpreter(PC=${Text.hexInt 3 m.pc} I=${Text.hexInt 3 m.index} SP={m.sp} DT={m.delay} "
    ++ s!"ST={m.sound} mode={m.mode.name})"

end Machine

end SuperChip
