import SuperChip.Machine.Execute

-- On a well-formed machine every instruction succeeds, and once the program counter is wrapped the
-- machine it leaves is well formed again.
namespace SuperChip.Machine

variable {m : Machine}

-- All of well-formedness but for the program counter. An instruction may leave that one past the
-- end of memory; only the execution of a whole word brings it back.
structure InBounds (m : Machine) : Prop where
  index_mem : 0 ≤ m.index ∧ m.index < 4096
  stack_mem : ∀ entry ∈ m.stack, 0 ≤ entry ∧ entry < 4096
  sp_mem : 0 ≤ m.sp ∧ m.sp < 16
  delay_mem : 0 ≤ m.delay ∧ m.delay < 256
  sound_mem : 0 ≤ m.sound ∧ m.sound < 256
  keys_length : m.keys.length = 16
  flags_length : m.flags.length = 8
  rom_size : m.rom.size ≤ maxRomSize

theorem WellFormed.inBounds (h : m.WellFormed) : m.InBounds := by
  refine { h with stack_mem := ?_ }
  intro entry hentry
  obtain ⟨i, hi, rfl⟩ := Vector.getElem_of_mem hentry
  exact h.stack_mem ⟨i, hi⟩

theorem emod_mem (i : Int) {n : Int} (hn : 0 < n) : 0 ≤ i % n ∧ i % n < n :=
  ⟨Int.emod_nonneg i (by omega), Int.emod_lt_of_pos i hn⟩

theorem byte_mem (byte : UInt8) : 0 ≤ (byte.toNat : Int) ∧ (byte.toNat : Int) < 256 := by
  have := byte.toNat_lt
  omega

namespace InBounds

theorem wellFormed_wrapPc (h : m.InBounds) : m.wrapPc.WellFormed :=
  { h with
    pc_mem := emod_mem m.pc (by decide)
    stack_mem := fun i => h.stack_mem _ (Vector.getElem_mem i.isLt) }

-- Registers, memory, canvas and program counter are in bounds by their types or need no bounds.
theorem setV (h : m.InBounds) (x : Register) (byte : UInt8) : (m.setV x byte).InBounds :=
  { h with }

theorem next (h : m.InBounds) : m.next.InBounds := { h with }

theorem skipIf (h : m.InBounds) (condition : Bool) : (m.skipIf condition).InBounds := { h with }

theorem scroll (h : m.InBounds) (canvas : Canvas 128 64) : (m.scroll canvas).InBounds := { h with }

theorem draw (h : m.InBounds) (x y : Register) (n : Nibble) : (m.draw x y n).InBounds := { h with }

theorem store (h : m.InBounds) (x : Register) : (m.store x).InBounds := { h with }

theorem restore (h : m.InBounds) (x : Register) : (m.restore x).InBounds := by
  unfold Machine.restore
  exact ⟨h.index_mem, h.stack_mem, h.sp_mem, h.delay_mem, h.sound_mem, h.keys_length,
    h.flags_length, h.rom_size⟩

theorem setWithFlag (h : m.InBounds) (x : Register) (byte : UInt8) (carry : Bool) :
    (m.setWithFlag x byte carry).InBounds :=
  (h.setV x byte).setV flag (bit carry)

theorem shiftRight (h : m.InBounds) (x : Register) : (m.shiftRight x).InBounds :=
  (h.setV flag _).setV x _

theorem shiftLeft (h : m.InBounds) (x : Register) : (m.shiftLeft x).InBounds :=
  (h.setV flag _).setV x _

theorem advance (h : m.InBounds) (x : Register) : (m.advance x).InBounds :=
  { h with index_mem := emod_mem _ (by decide) }

theorem ret (h : m.InBounds) : m.ret.InBounds := { h with sp_mem := emod_mem _ (by decide) }

end InBounds

theorem powerOn_wellFormed : powerOn.WellFormed where
  pc_mem := by decide
  index_mem := by decide
  stack_mem := by
    intro i
    simp [powerOn]
  sp_mem := by decide
  delay_mem := by decide
  sound_mem := by decide
  keys_length := rfl
  flags_length := rfl
  rom_size := by decide

theorem WellFormed.withRom (h : m.WellFormed) {rom : Array UInt8} (hrom : rom.size ≤ maxRomSize) :
    (m.withRom rom).WellFormed :=
  ⟨h.pc_mem, h.index_mem, h.stack_mem, h.sp_mem, h.delay_mem, h.sound_mem, h.keys_length,
    h.flags_length, hrom⟩

theorem load_of_fits {rom : Array UInt8} (hrom : rom.size ≤ maxRomSize) :
    m.load rom = .ok (m.withRom rom) := by
  simp only [load, Nat.not_lt.mpr hrom, if_false]

theorem load_of_large {rom : Array UInt8} (hrom : maxRomSize < rom.size) :
    m.load rom = .error ⟨rom.size⟩ := by
  simp only [load, gt_iff_lt, hrom, if_true]

-- A machine is only had if the program fits.
theorem eq_withRom_of_load {rom : Array UInt8} {m' : Machine} (hload : m.load rom = .ok m') :
    rom.size ≤ maxRomSize ∧ m' = m.withRom rom := by
  by_cases hrom : rom.size ≤ maxRomSize
  · rw [load_of_fits hrom] at hload
    exact ⟨hrom, (Except.ok.inj hload).symm⟩
  · rw [load_of_large (Nat.lt_of_not_le hrom)] at hload
    cases hload

theorem WellFormed.load (h : m.WellFormed) {rom : Array UInt8} {m' : Machine}
    (hload : m.load rom = .ok m') : m'.WellFormed := by
  obtain ⟨hrom, rfl⟩ := eq_withRom_of_load hload
  exact h.withRom hrom

theorem nextWord_withRom (high low : UInt8) :
    (powerOn.withRom #[high, low]).nextWord = high.toUInt16 * 256 + low.toUInt16 := by
  simp [nextWord, withRom, powerOn, programStart, Memory.readWord, Memory.writeAll,
    Memory.read_write]

-- A program that was accepted once is accepted again, so that a reset cannot be refused.
theorem InBounds.reset (h : m.InBounds) : m.reset.WellFormed := by
  have hon := powerOn_wellFormed.withRom h.rom_size
  exact ⟨hon.pc_mem, hon.index_mem, hon.stack_mem, hon.sp_mem, hon.delay_mem, hon.sound_mem,
    hon.keys_length, hon.flags_length, hon.rom_size⟩

theorem countDown_mem {timer : Int} (h : 0 ≤ timer ∧ timer < 256) :
    0 ≤ countDown timer ∧ countDown timer < 256 := by
  unfold countDown
  split <;> omega

theorem withTimers_wellFormed (h : m.WellFormed) {delay sound : Int}
    (hd : 0 ≤ delay ∧ delay < 256) (hs : 0 ≤ sound ∧ sound < 256) :
    WellFormed { m with delay, sound } :=
  { h with delay_mem := hd, sound_mem := hs }

theorem tick_wellFormed (h : m.WellFormed) : m.tick.WellFormed := by
  have ht := withTimers_wellFormed h (countDown_mem h.delay_mem) (countDown_mem h.sound_mem)
  exact ht

theorem pick_natCast (absent : Fault) (x : Fin 16) : pick absent (x.val : Int) = .ok x := by
  have hx := x.isLt
  have hword : fitsWord (x.val : Int) = true := by
    simp only [fitsWord, Bool.and_eq_true, decide_eq_true_eq]
    omega
  simp [pick, hword, place?_natCast]

theorem exists_slot (h : m.InBounds) : ∃ slot : Fin 16, m.sp = slot.val := by
  obtain ⟨hlo, hhi⟩ := h.sp_mem
  exact ⟨⟨m.sp.toNat, by omega⟩, by simp only; omega⟩

theorem key_eq (h : m.InBounds) (n : Nat) : ∃ held, m.keys[n % 16]? = some held := by
  have hlt : n % 16 < m.keys.length := by
    have := h.keys_length
    omega
  exact ⟨_, List.getElem?_eq_getElem hlt⟩

theorem loadNumber_eq (m : Machine) (x : Register) {n : Int} (hn : 0 ≤ n ∧ n < 256) :
    m.loadNumber x n = (m.setV x (UInt8.ofInt n)).next.done := by
  simp [loadNumber, isByte, hn.1, hn.2]

def LowestHeld (keys : List Bool) (key : Nat) : Prop :=
  keys[key]? = some true ∧ ∀ lower < key, keys[lower]? = some false

-- What waiting comes to if no key is held, and if one is. Keys have numbers below sixteen, and those
-- fit a register.
theorem waitKey_of_free (hfree : true ∉ m.keys) (x : Register) : m.waitKey x = m.done := by
  have hnone : m.keys.findIdx? id = none := by
    rw [List.findIdx?_eq_none_iff]
    intro held hmem
    exact Bool.eq_false_iff.mpr fun hheld => hfree (hheld ▸ hmem)
  simp only [waitKey, hnone]

theorem waitKey_of_held (h : m.InBounds) (hheld : true ∈ m.keys) (x : Register) :
    ∃ key : Fin 16, LowestHeld m.keys key ∧
      m.waitKey x = (m.setV x (UInt8.ofNat key)).next.done := by
  have hsome : (m.keys.findIdx? id).isSome = true := by
    rw [List.findIdx?_isSome, List.any_eq_true]
    exact ⟨true, hheld, rfl⟩
  obtain ⟨key, hkey⟩ := Option.isSome_iff_exists.mp hsome
  obtain ⟨hlt, htrue, hlower⟩ := List.findIdx?_eq_some_iff_getElem.mp hkey
  have hnumber : key < 16 := h.keys_length ▸ hlt
  refine ⟨⟨key, hnumber⟩, ⟨?_, ?_⟩, ?_⟩
  · exact List.getElem?_eq_some_iff.mpr ⟨hlt, htrue⟩
  · intro lower hless
    exact List.getElem?_eq_some_iff.mpr
      ⟨Nat.lt_trans hless hlt, Bool.eq_false_iff.mpr (hlower lower hless)⟩
  · have hbyte : ((key : Int) % 2 ^ 8).toNat = key := by omega
    simp only [waitKey, hkey]
    rw [loadNumber_eq m x (by omega), UInt8.ofInt, hbyte]

theorem withFlags_eq (h : m.InBounds) (x : Register) : m.withFlags x = m.next.done := by
  have hle : flagCount x ≤ m.flags.length := by
    rw [h.flags_length]
    exact Nat.min_le_right _ _
  simp [withFlags, hle]

-- What an instruction comes to on a well-formed machine.
def InOrder (o : Outcome) : Prop := o.2 = none ∧ o.1.InBounds

theorem inOrder_done (h : m.InBounds) : InOrder m.done := ⟨rfl, h⟩

-- The instructions that have a way to fail come first.
theorem inOrder_call (h : m.WellFormed) (target : Address) : InOrder (m.call target) := by
  obtain ⟨slot, hslot⟩ := exists_slot h.inBounds
  simp only [call, hslot, pick_natCast]
  refine inOrder_done { h.inBounds with stack_mem := ?_, sp_mem := emod_mem _ (by decide) }
  -- the address that is pushed is in bounds because the program counter is
  intro entry hentry
  have hset : entry ∈ m.stack.set slot m.pc slot.isLt := hentry
  rcases Vector.mem_or_eq_of_mem_set hset with hold | rfl
  · exact h.inBounds.stack_mem entry hold
  · exact h.pc_mem

theorem inOrder_skipOnKey (h : m.InBounds) (x : Register) (wanted : Bool) :
    InOrder (m.skipOnKey x wanted) := by
  obtain ⟨held, hheld⟩ := key_eq h m.v[x].toNat
  simp only [skipOnKey, hheld]
  exact inOrder_done (h.skipIf _)

theorem inOrder_loadNumber (h : m.InBounds) (x : Register) {n : Int} (hn : 0 ≤ n ∧ n < 256) :
    InOrder (m.loadNumber x n) := by
  rw [loadNumber_eq m x hn]
  exact inOrder_done (h.setV x _).next

theorem inOrder_waitKey (h : m.InBounds) (x : Register) : InOrder (m.waitKey x) := by
  by_cases hheld : true ∈ m.keys
  · obtain ⟨key, -, hwait⟩ := waitKey_of_held h hheld x
    rw [hwait]
    exact inOrder_done (h.setV x _).next
  · rw [waitKey_of_free hheld]
    exact inOrder_done h

theorem inOrder_withFlags (h : m.InBounds) (x : Register) : InOrder (m.withFlags x) := by
  rw [withFlags_eq h]
  exact inOrder_done h.next

theorem inOrder_saveFlags (h : m.InBounds) (x : Register) : InOrder (m.saveFlags x) := by
  unfold saveFlags
  apply inOrder_withFlags
  refine { h with flags_length := ?_ }
  have hflags := h.flags_length
  simp only [List.length_append, List.length_take, List.length_drop, Vector.length_toList]
  omega

theorem inOrder_loadFlags (h : m.InBounds) (x : Register) : InOrder (m.loadFlags x) := by
  unfold loadFlags
  apply inOrder_withFlags
  exact ⟨h.index_mem, h.stack_mem, h.sp_mem, h.delay_mem, h.sound_mem, h.keys_length,
    h.flags_length, h.rom_size⟩

-- One case for each instruction. Only a call needs the bounds of the program counter.
theorem inOrder_perform (dice : Dice) (h : m.WellFormed) (i : Instruction) :
    InOrder (m.perform dice i) := by
  have hb := h.inBounds
  cases i with
  | scrollDown rows => exact inOrder_done (hb.scroll _).next
  | clear => exact inOrder_done (hb.scroll _).next
  | ret => exact inOrder_done hb.ret
  | scrollRight => exact inOrder_done (hb.scroll _).next
  | scrollLeft => exact inOrder_done (hb.scroll _).next
  | exit => exact inOrder_done hb.reset.inBounds
  | useMode super => exact inOrder_done (InBounds.next { hb with })
  | jump target => exact inOrder_done { hb with }
  | call target => exact inOrder_call h target
  | jumpPlus target => exact inOrder_done { hb with }
  | skipEq x byte => exact inOrder_done (hb.skipIf _)
  | skipNe x byte => exact inOrder_done (hb.skipIf _)
  | skipSame x y => exact inOrder_done (hb.skipIf _)
  | skipDiffer x y => exact inOrder_done (hb.skipIf _)
  | load x byte => exact inOrder_done (hb.setV x _).next
  | increase x byte => exact inOrder_done (hb.setV x _).next
  | random x mask =>
    have hset := hb.setV x (dice m.rolls &&& mask)
    exact inOrder_done (InBounds.next { hset with })
  | copy x y => exact inOrder_done (hb.setV x _).next
  | or x y => exact inOrder_done (hb.setV x _).next
  | and x y => exact inOrder_done (hb.setV x _).next
  | xor x y => exact inOrder_done (hb.setV x _).next
  | add x y => exact inOrder_done (hb.setWithFlag x _ _).next
  | sub x y => exact inOrder_done (hb.setWithFlag x _ _).next
  | shiftRight x y => exact inOrder_done (hb.shiftRight x).next
  | subFrom x y => exact inOrder_done (hb.setWithFlag x _ _).next
  | shiftLeft x y => exact inOrder_done (hb.shiftLeft x).next
  | point target =>
    have hindex : 0 ≤ (target.val : Int) ∧ (target.val : Int) < 4096 := by omega
    exact inOrder_done (InBounds.next { hb with index_mem := hindex })
  | draw x y n => exact inOrder_done (hb.draw x y n).next
  | skipHeld x => exact inOrder_skipOnKey hb x true
  | skipFree x => exact inOrder_skipOnKey hb x false
  | readDelay x => exact inOrder_loadNumber hb x hb.delay_mem
  | waitKey x => exact inOrder_waitKey hb x
  | setDelay x => exact inOrder_done (InBounds.next { hb with delay_mem := byte_mem m.v[x] })
  | setSound x => exact inOrder_done (InBounds.next { hb with sound_mem := byte_mem m.v[x] })
  | advance x => exact inOrder_done (hb.advance x).next
  | lowGlyph x =>
    refine inOrder_done (InBounds.next { hb with index_mem := ?_ })
    simp only [Font.lowStart, Font.lowRows]
    omega
  | highGlyph x =>
    refine inOrder_done (InBounds.next { hb with index_mem := ?_ })
    simp only [Font.highStart, Font.lowStart, Font.lowRows, Font.highRows]
    omega
  | digits x => exact inOrder_done (InBounds.next { hb with })
  | store x => exact inOrder_done (hb.store x).next
  | restore x => exact inOrder_done (hb.restore x).next
  | saveFlags x => exact inOrder_saveFlags hb x
  | loadFlags x => exact inOrder_loadFlags hb x

theorem wellFormed_withWord (h : m.WellFormed) (word : UInt16) :
    WellFormed { m with word } := { h with }

theorem execute_of_unknown (dice : Dice) (m : Machine) {word : UInt16}
    (hi : Instruction.ofWord? word = none) :
    m.execute dice word = failed { m with word } (.unknownWord word m.pc) := by
  simp only [execute, hi]

-- The machine that executing an instruction's word leaves, without the detour through outcomes.
theorem execute_of_known (dice : Dice) (h : m.WellFormed) {word : UInt16} {i : Instruction}
    (hi : Instruction.ofWord? word = some i) :
    m.execute dice word = (perform dice { m with word } i).1.wrapPc.done := by
  have hnone := (inOrder_perform dice (wellFormed_withWord h word) i).1
  simp only [execute, hi]
  split
  · rename_i m' heq
    rw [heq]
  · rename_i m' fault heq
    simp [heq] at hnone

theorem execute_wellFormed (dice : Dice) (h : m.WellFormed) (word : UInt16) :
    (m.execute dice word).1.WellFormed := by
  have hw := wellFormed_withWord h word
  cases hi : Instruction.ofWord? word with
  | none =>
    rw [execute_of_unknown dice m hi]
    exact hw
  | some i =>
    rw [execute_of_known dice h hi]
    exact (inOrder_perform dice hw i).2.wellFormed_wrapPc

theorem WellFormed.of_execute {dice : Dice} {word : UInt16} {m' : Machine} (h : m.WellFormed)
    (hexecute : m.execute dice word = done m') : m'.WellFormed := by
  have hwell := execute_wellFormed dice h word
  rwa [hexecute] at hwell

-- Whatever goes wrong on a well-formed machine is an unknown word.
theorem fault_execute (dice : Dice) (h : m.WellFormed) {word : UInt16} {fault : Fault}
    (hf : (m.execute dice word).2 = some fault) :
    Instruction.ofWord? word = none ∧ fault = .unknownWord word m.pc := by
  cases hi : Instruction.ofWord? word with
  | none =>
    rw [execute_of_unknown dice m hi] at hf
    exact ⟨rfl, (Option.some.inj hf).symm⟩
  | some i =>
    rw [execute_of_known dice h hi] at hf
    simp [done] at hf

end SuperChip.Machine
