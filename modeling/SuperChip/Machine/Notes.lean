import SuperChip.Log
import SuperChip.Machine.Execute

-- What is noted down about the work of a machine.
namespace SuperChip.Machine

-- The program in a machine, when it has just been put there.
def loadNote (m : Machine) : Log.Entry :=
  ⟨.info, .interpreter, s!"Loaded {m.rom.size} byte ROM at ${Text.hex 3 programStart}"⟩

-- A cycle is worth a note only if it leaves the program: where that was, and the program that is
-- loaded again.
def cycleNotes (m : Machine) : List Log.Entry :=
  if Instruction.ofWord? m.nextWord = some .exit then
    [⟨.info, .interpreter, s!"EXIT at ${Text.hexInt 3 m.pc}; resetting"⟩, m.loadNote]
  else []

end SuperChip.Machine
