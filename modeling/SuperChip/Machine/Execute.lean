import SuperChip.Machine.Basic

-- What each instruction does to the machine, and the cycle that fetches and executes one.
namespace SuperChip.Machine

-- What became of a machine, and what went wrong on the way, if anything did.
abbrev Outcome := Machine × Option Fault

def done (m : Machine) : Outcome := (m, none)

def failed (m : Machine) (fault : Fault) : Outcome := (m, some fault)

-- The register that arithmetic and drawing report through.
def flag : Register := 15

def setV (m : Machine) (x : Register) (byte : UInt8) : Machine := { m with v := m.v.set x byte }

-- On to the following instruction.
def next (m : Machine) : Machine := { m with pc := m.pc + 2 }

def skipIf (m : Machine) (condition : Bool) : Machine :=
  { m with pc := m.pc + if condition then 4 else 2 }

def wrapPc (m : Machine) : Machine := { m with pc := m.pc % 4096 }

-- A one or a zero for the flag register.
def bit (b : Bool) : UInt8 := if b then 1 else 0

-- Results of arithmetic go to the register first and the flag last, so that the flag wins when
-- the register is the flag register.
def setWithFlag (m : Machine) (x : Register) (byte : UInt8) (carry : Bool) : Machine :=
  (m.setV x byte).setV flag (bit carry)

-- Shifts report the bit they lose before they shift, and then shift what the register holds.
def shiftRight (m : Machine) (x : Register) : Machine :=
  let m := m.setV flag (m.v[x] &&& 1)
  m.setV x (m.v[x] >>> 1)

def shiftLeft (m : Machine) (x : Register) : Machine :=
  let m := m.setV flag (m.v[x] >>> 7)
  m.setV x (m.v[x] <<< 1)

-- The register or the slot that a number names.
def pick (absent : Fault) (i : Int) : Except Fault (Fin 16) :=
  if fitsWord i then (place? 16 i).elim (.error absent) .ok else .error .noWord

def isByte (n : Int) : Bool := 0 ≤ n && n < 256

-- The shifts of the first such machines took their operand from the second register. No
-- instruction word leads to them, and registers can be counted from either end. The flag is set
-- before a bad number of the first register is noticed.
def shiftFrom (m : Machine) (x y : Int) (lost : UInt8 → UInt8) (shifted : UInt8 → UInt8) : Outcome :=
  match pick .noByte y with
  | .error fault => m.failed fault
  | .ok y =>
    let byte := m.v[y]
    let m := m.setV flag (lost byte)
    match pick .noByte x with
    | .error fault => m.failed fault
    | .ok x => (m.setV x (shifted byte)).next.wrapPc.done

def shiftRightFrom (m : Machine) (x y : Int) : Outcome := m.shiftFrom x y (· &&& 1) (· >>> 1)

def shiftLeftFrom (m : Machine) (x y : Int) : Outcome := m.shiftFrom x y (· >>> 7) (· <<< 1)

def call (m : Machine) (target : Address) : Outcome :=
  match pick .noSlot m.sp with
  | .error fault => m.failed fault
  | .ok slot =>
    { m with stack := m.stack.set slot m.pc, sp := (m.sp + 1) % 16, pc := target.val }.done

theorem slots_pos : 0 < 16 := by decide

-- A call leaves its own address on the stack, so returning goes two bytes past it.
def ret (m : Machine) : Machine :=
  { m with sp := (m.sp - 1) % 16, pc := m.stack.get (onRing 16 slots_pos (m.sp - 1)) + 2 }

-- Sprites of height zero are sixteen rows high, and in super mode sixteen pixels wide.
def spriteRows (n : Nibble) : Nat := if n = 0 then 16 else n

def spriteBytes (mode : Mode) (n : Nibble) : Nat := if n = 0 ∧ mode = .super then 2 else 1

-- Places on the canvas wrap round the part that the mode can reach.
def place (mode : Mode) (x y : Nat) : Fin 128 × Fin 64 :=
  (⟨x % mode.width, Nat.lt_of_lt_of_le (Nat.mod_lt _ mode.width_pos) mode.width_le⟩,
    ⟨y % mode.height, Nat.lt_of_lt_of_le (Nat.mod_lt _ mode.height_pos) mode.height_le⟩)

-- Whether the sprite at the index register has a pixel in the given column and row. The leftmost
-- pixel of a byte is its highest bit.
def spriteBit (m : Machine) (bytes column row : Nat) : Bool :=
  (m.ram.read (m.index + row * bytes + column / 8)).toNat.testBit (7 - column % 8)

-- The places of a sprite's pixels, row by row from the left.
def spritePixels (m : Machine) (x y : Register) (n : Nibble) : List (Fin 128 × Fin 64) :=
  let bytes := spriteBytes m.mode n
  (List.range (spriteRows n)).flatMap fun row =>
    ((List.range (8 * bytes)).filter fun column => m.spriteBit bytes column row).map fun column =>
      place m.mode (m.v[x].toNat + column) (m.v[y].toNat + row)

-- Drawing toggles the sprite's pixels. The flag register tells whether any went dark; the picture
-- counts as changed only if any came on.
def draw (m : Machine) (x y : Register) (n : Nibble) : Machine :=
  let t := m.canvas.toggleAll (m.spritePixels x y n)
  { m with
    canvas := t.canvas
    v := m.v.set flag (bit t.erased)
    redraw := m.redraw || t.lighted }

def scroll (m : Machine) (canvas : Canvas 128 64) : Machine := { m with canvas, redraw := true }

-- Going on depends on whether the key that a register names is held.
def skipOnKey (m : Machine) (x : Register) (wanted : Bool) : Outcome :=
  match m.keys[m.v[x].toNat % 16]? with
  | some held => (m.skipIf (held == wanted)).done
  | none => m.failed .missingKey

-- Any number that a register can hold.
def loadNumber (m : Machine) (x : Register) (n : Int) : Outcome :=
  if isByte n then (m.setV x (UInt8.ofInt n)).next.done else m.failed .tooLarge

-- The lowest held key goes into the register. While no key is held the machine stays where it is,
-- and the instruction is executed again.
def waitKey (m : Machine) (x : Register) : Outcome :=
  match m.keys.findIdx? id with
  | none => m.done
  | some key => m.loadNumber x key

-- Adding to the index register reports whether the sum left the twelve bits that are kept.
def advance (m : Machine) (x : Register) : Machine :=
  let total := m.index + m.v[x].toNat
  { m with index := total % 4096, v := m.v.set flag (bit (total > 4095)) }

-- The three decimal digits of a byte.
def decimalDigits (byte : UInt8) : List UInt8 := [byte / 100, byte / 10 % 10, byte % 10]

-- Registers up to the named one, to memory and back.
def store (m : Machine) (x : Register) : Machine :=
  { m with ram := m.ram.writeAll m.index (m.v.toList.take (x.val + 1)) }

def restore (m : Machine) (x : Register) : Machine :=
  { m with v := .ofFn fun i => if i ≤ x then m.ram.read (m.index + i) else m.v[i] }

-- Registers up to the named one, to the eight flags and back. There are no flags for the upper
-- half of the registers. If there are too few flags, those that are there are used up first.
def flagCount (x : Register) : Nat := min (x.val + 1) 8

def withFlags (m : Machine) (x : Register) : Outcome :=
  if flagCount x ≤ m.flags.length then m.next.done else m.failed .noByte

def saveFlags (m : Machine) (x : Register) : Outcome :=
  let count := min (flagCount x) m.flags.length
  { m with flags := m.v.toList.take count ++ m.flags.drop count }.withFlags x

def loadFlags (m : Machine) (x : Register) : Outcome :=
  { m with v := .ofFn fun i =>
      if i.val < flagCount x then m.flags.getD i m.v[i] else m.v[i] }.withFlags x

-- The effect of an instruction, but for the wrapping of the program counter.
def perform (dice : Dice) (m : Machine) : Instruction → Outcome
  | .scrollDown rows => (m.scroll (m.canvas.scrollDown rows.val)).next.done
  | .clear => (m.scroll .dark).next.done
  | .ret => m.ret.done
  | .scrollRight => (m.scroll (m.canvas.scrollRight 4)).next.done
  | .scrollLeft => (m.scroll (m.canvas.scrollLeft 4)).next.done
  | .exit => m.reset.done
  | .useMode super => { m with mode := if super then .super else .standard }.next.done
  | .jump target => { m with pc := target.val }.done
  | .call target => m.call target
  | .jumpPlus target => { m with pc := target.val + (m.v.get 0).toNat }.done
  | .skipEq x byte => (m.skipIf (m.v[x] == byte)).done
  | .skipNe x byte => (m.skipIf (m.v[x] != byte)).done
  | .skipSame x y => (m.skipIf (m.v[x] == m.v[y])).done
  | .skipDiffer x y => (m.skipIf (m.v[x] != m.v[y])).done
  | .load x byte => (m.setV x byte).next.done
  | .increase x byte => (m.setV x (m.v[x] + byte)).next.done
  | .random x mask => { m.setV x (dice m.rolls &&& mask) with rolls := m.rolls + 1 }.next.done
  | .copy x y => (m.setV x m.v[y]).next.done
  | .or x y => (m.setV x (m.v[x] ||| m.v[y])).next.done
  | .and x y => (m.setV x (m.v[x] &&& m.v[y])).next.done
  | .xor x y => (m.setV x (m.v[x] ^^^ m.v[y])).next.done
  | .add x y =>
    (m.setWithFlag x (m.v[x] + m.v[y]) (m.v[x].toNat + m.v[y].toNat > 255)).next.done
  | .sub x y => (m.setWithFlag x (m.v[x] - m.v[y]) (m.v[x] ≥ m.v[y])).next.done
  | .shiftRight x _ => (m.shiftRight x).next.done
  | .subFrom x y => (m.setWithFlag x (m.v[y] - m.v[x]) (m.v[y] ≥ m.v[x])).next.done
  | .shiftLeft x _ => (m.shiftLeft x).next.done
  | .point target => { m with index := target.val }.next.done
  | .draw x y n => (m.draw x y n).next.done
  | .skipHeld x => m.skipOnKey x true
  | .skipFree x => m.skipOnKey x false
  | .readDelay x => m.loadNumber x m.delay
  | .waitKey x => m.waitKey x
  | .setDelay x => { m with delay := m.v[x].toNat }.next.done
  | .setSound x => { m with sound := m.v[x].toNat }.next.done
  | .advance x => (m.advance x).next.done
  | .lowGlyph x => { m with index := Font.lowStart + m.v[x].toNat % 16 * Font.lowRows }.next.done
  | .highGlyph x => { m with index := Font.highStart + m.v[x].toNat % 16 * Font.highRows }.next.done
  | .digits x => { m with ram := m.ram.writeAll m.index (decimalDigits m.v[x]) }.next.done
  | .store x => (m.store x).next.done
  | .restore x => (m.restore x).next.done
  | .saveFlags x => m.saveFlags x
  | .loadFlags x => m.loadFlags x

-- Executing a word. A word that stands for no instruction leaves the machine as it was, but that it
-- remembers the word.
def execute (dice : Dice) (m : Machine) (word : UInt16) : Outcome :=
  let m := { m with word }
  match Instruction.ofWord? word with
  | none => m.failed (.unknownWord word m.pc)
  | some i =>
    match m.perform dice i with
    | (m, none) => m.wrapPc.done
    | (m, some fault) => m.failed fault

-- Of any number the low sixteen bits are the word.
def executeCode (dice : Dice) (m : Machine) (code : Int) : Outcome :=
  m.execute dice (UInt16.ofInt code)

-- The word at the program counter.
def nextWord (m : Machine) : UInt16 := m.ram.readWord m.pc

def fetch (m : Machine) : Machine := { m with word := m.nextWord }

def cycle (dice : Dice) (m : Machine) : Outcome := m.execute dice m.nextWord

-- Up to a number of cycles, as far as they succeed: how many did, and what went wrong in the next.
def cycles (dice : Dice) (m : Machine) : Nat → Machine × Nat × Option Fault
  | 0 => (m, 0, none)
  | n + 1 => match m.cycle dice with
    | (m, some fault) => (m, 0, some fault)
    | (m, none) => let (m, done, fault) := m.cycles dice n; (m, done + 1, fault)

-- What callers may rely on of a machine that was switched on and only ever ran.
structure WellFormed (m : Machine) : Prop where
  pc_mem : 0 ≤ m.pc ∧ m.pc < 4096
  index_mem : 0 ≤ m.index ∧ m.index < 4096
  stack_mem : ∀ i : Fin 16, 0 ≤ m.stack[i] ∧ m.stack[i] < 4096
  sp_mem : 0 ≤ m.sp ∧ m.sp < 16
  delay_mem : 0 ≤ m.delay ∧ m.delay < 256
  sound_mem : 0 ≤ m.sound ∧ m.sound < 256
  keys_length : m.keys.length = 16
  flags_length : m.flags.length = 8
  rom_size : m.rom.size ≤ maxRomSize

end SuperChip.Machine
