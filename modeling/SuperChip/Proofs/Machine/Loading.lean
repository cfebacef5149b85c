import SuperChip.Proofs.Machine.Run
import SuperChip.RomFile

-- Programs that are put into machines. A machine takes all of a program or nothing, and what it takes
-- is just what memory has room for. A file is measured in the same way before there is a machine.
namespace SuperChip

-- A stretch that is written over keeps the length of what it is a part of only if it ends in there.
theorem Memory.length_overwrite_iff (bytes : List UInt8) {start : Nat} (new : List UInt8)
    (hs : start ≤ bytes.length) :
    (overwrite bytes start new).length = bytes.length ↔ start + new.length ≤ bytes.length := by
  constructor
  · intro hlength
    simp only [overwrite, List.length_append, List.length_take, List.length_drop] at hlength
    omega
  · exact length_overwrite bytes start new

namespace Machine

-- A machine that has taken a program, against the machine as it was. Memory is what writing over a
-- stretch of it leaves.
structure Took (m : Machine) (rom : Array UInt8) (m' : Machine) : Prop where
  program : ∀ (k : Nat) (hk : k < rom.size), m'.ram.read (0x200 + k) = rom[k]
  elsewhere : ∀ address : Address, address.val < 0x200 ∨ 0x200 + rom.size ≤ address.val →
    m'.ram.read address.val = m.ram.read address.val
  bytes : m'.ram.toList = Memory.overwrite m.ram.toList 0x200 rom.toList
  rom : m'.rom = rom
  rest : m' = { m with ram := m'.ram, rom := m'.rom }

variable {rom : Array UInt8}

-- The limit is the place that is left behind the program start.
theorem keeps_length_iff (m : Machine) (rom : Array UInt8) :
    (Memory.overwrite m.ram.toList 0x200 rom.toList).length = 4096 ↔ rom.size ≤ 3584 := by
  have hstart : 0x200 ≤ m.ram.toList.length := by
    rw [Vector.length_toList]
    decide
  have hiff := Memory.length_overwrite_iff m.ram.toList rom.toList hstart
  rw [Vector.length_toList] at hiff
  rw [hiff, Array.length_toList]
  omega

theorem withRom_took (m : Machine) (hrom : rom.size ≤ 3584) : Took m rom (m.withRom rom) := by
  refine ⟨?_, ?_, toList_withRom m hrom, rfl, rfl⟩
  · intro k hk
    have hlength : rom.toList.length ≤ 4096 := by
      rw [Array.length_toList]
      omega
    have hread := Memory.read_writeAll m.ram programStart hlength (by rwa [Array.length_toList])
    rwa [Array.getElem_toList] at hread
  · intro address hout
    have haddress := address.isLt
    refine Memory.read_writeAll_of_ne m.ram ?_
    intro k hk
    rw [Array.length_toList] at hk
    -- neither side goes round the end of memory
    have hstart : programStart = 0x200 := rfl
    omega

end Machine

namespace RomFile

open Machine (Took)

variable {path : String} {contents : Array UInt8}

theorem read_of_fits (path : String) (hfits : contents.size ≤ 3584) :
    read path (.bytes contents) = .ok contents := by
  have hcheck : checkSize contents.size = .ok () := if_neg (Nat.not_lt.mpr hfits)
  simp only [read, hcheck]
  rfl

theorem read_of_large (path : String) (hlarge : 3584 < contents.size) :
    read path (.bytes contents) = .error (.tooLarge ⟨contents.size⟩) := by
  have hcheck : checkSize contents.size = .error ⟨contents.size⟩ := if_pos hlarge
  simp only [read, hcheck]
  rfl

-- A file that cannot be read leaves nothing to build a machine from.
theorem create_of_error {found : Found} {cause : Error} (hread : read path found = .error cause) :
    create path found = .error cause := by
  simp only [create, hread]
  rfl

theorem create_of_fits (path : String) (hfits : contents.size ≤ 3584) :
    create path (.bytes contents) = .ok (Machine.powerOn.withRom contents) := by
  simp only [create, read_of_fits path hfits]
  exact congrArg (Except.mapError Error.tooLarge) (Machine.load_of_fits hfits)

theorem create_cases (path : String) (found : Found) :
    (∃ cause, read path found = .error cause ∧ create path found = .error cause ∧
      ∀ contents, found = .bytes contents →
        3584 < contents.size ∧ cause = .tooLarge ⟨contents.size⟩) ∨
    ∃ contents m', found = .bytes contents ∧ contents.size ≤ 3584 ∧
      read path found = .ok contents ∧ Machine.powerOn.load contents = .ok m' ∧
      create path found = .ok m' ∧ Took Machine.powerOn contents m' := by
  cases found with
  | noFile => exact .inl ⟨.notFound path, rfl, create_of_error rfl, nofun⟩
  | unreadable cause => exact .inl ⟨.unreadable path cause, rfl, create_of_error rfl, nofun⟩
  | bytes contents =>
    by_cases hfits : contents.size ≤ 3584
    · exact .inr ⟨contents, _, rfl, hfits, read_of_fits path hfits, Machine.load_of_fits hfits,
        create_of_fits path hfits, Machine.withRom_took _ hfits⟩
    · have hlarge := Nat.lt_of_not_le hfits
      refine .inl ⟨_, read_of_large path hlarge, create_of_error (read_of_large path hlarge), ?_⟩
      rintro _ ⟨⟩
      exact ⟨hlarge, rfl⟩

end RomFile

namespace Machine

-- A program is refused, and the machine stays as it is, exactly if memory would have to grow for it.
-- Files with the same programs are refused, so that a machine is only built for one that it takes.
theorem load_all_or_nothing (dice : Dice) (m : Machine) (rom : Array UInt8) :
    (3584 < rom.size ∧ m.load rom = .error ⟨rom.size⟩ ∧
        RomTooLarge.message ⟨rom.size⟩ =
          s!"ROM is {rom.size} bytes; at most {3584} bytes fit into memory" ∧
        m.act dice (.load rom) = (m, some (.romTooLarge ⟨rom.size⟩)) ∧
        RomFile.checkSize rom.size = .error ⟨rom.size⟩ ∨
      rom.size ≤ 3584 ∧ ∃ m', m.load rom = .ok m' ∧ Took m rom m' ∧
        m.act dice (.load rom) = (m', none) ∧ RomFile.checkSize rom.size = .ok ()) ∧
    ((Memory.overwrite m.ram.toList 0x200 rom.toList).length = 4096 ↔ rom.size ≤ 3584) ∧
    ∀ (path : String) (found : RomFile.Found),
      (∃ cause, RomFile.read path found = .error cause ∧
        RomFile.create path found = .error cause ∧
        ∀ contents, found = .bytes contents →
          3584 < contents.size ∧ cause = .tooLarge ⟨contents.size⟩) ∨
      ∃ contents m', found = .bytes contents ∧ contents.size ≤ 3584 ∧
        RomFile.read path found = .ok contents ∧ powerOn.load contents = .ok m' ∧
        RomFile.create path found = .ok m' ∧ Took powerOn contents m' := by
  refine ⟨?_, keeps_length_iff m rom, RomFile.create_cases⟩
  by_cases hfits : rom.size ≤ 3584
  · have hload : m.load rom = .ok (m.withRom rom) := load_of_fits hfits
    refine .inr ⟨hfits, m.withRom rom, hload, withRom_took m hfits, ?_, ?_⟩
    · simp only [act, hload]
    · exact if_neg (Nat.not_lt.mpr hfits)
  · have hlarge := Nat.lt_of_not_le hfits
    have hload : m.load rom = .error ⟨rom.size⟩ := load_of_large hlarge
    refine .inl ⟨hlarge, hload, rfl, ?_, if_pos hlarge⟩
    simp only [act, hload]

end Machine

end SuperChip
