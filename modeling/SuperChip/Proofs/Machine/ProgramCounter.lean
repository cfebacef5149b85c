import SuperChip.Proofs.Machine.Words

-- Where a machine stands after an instruction. Most lead on to the next one. Jumps, calls and returns
-- lead elsewhere, skips leave out the next one under a condition, and waiting leads nowhere.
namespace SuperChip

namespace Machine

-- Two bytes on, or four if the next instruction is left out.
def past (m : Machine) (skipped : Prop) [Decidable skipped] : Int :=
  (m.pc + if skipped then 4 else 2) % 4096

-- Whether the key is held that a register names.
def Holds (m : Machine) (x : Register) : Prop := m.keys[(m.v.get x).toNat % 16]? = some true

instance (m : Machine) (x : Register) : Decidable (m.Holds x) :=
  inferInstanceAs (Decidable (_ = _))

end Machine

namespace Instruction

open Machine (slots_pos)

def landing (m : Machine) : Instruction → Int
  -- 1nnn, 2nnn, Bnnn
  | jump target | call target => target.val
  | jumpPlus target => (target.val + (m.v.get 0).toNat) % 4096
  -- 00EE, 00FD
  | ret => (m.stack.get (onRing 16 slots_pos (m.sp - 1)) + 2) % 4096
  | exit => 0x200
  -- 3xnn, 4xnn, 5xy0, 9xy0, Ex9E, ExA1
  | skipEq x byte => m.past (m.v.get x = byte)
  | skipNe x byte => m.past (m.v.get x ≠ byte)
  | skipSame x y => m.past (m.v.get x = m.v.get y)
  | skipDiffer x y => m.past (m.v.get x ≠ m.v.get y)
  | skipHeld x => m.past (m.Holds x)
  | skipFree x => m.past (¬ m.Holds x)
  -- Fx0A
  | waitKey _ => if true ∈ m.keys then m.past False else m.pc
  | _ => m.past False

-- The skip under the opposite condition.
def opposite? : Instruction → Option Instruction
  | skipEq x byte => some (skipNe x byte)
  | skipSame x y => some (skipDiffer x y)
  | skipHeld x => some (skipFree x)
  | _ => none

end Instruction

namespace Machine

variable {m : Machine}

-- Going on, with the program counter wrapped.
theorem pc_next (m m' : Machine) (hpc : m'.pc = m.pc) :
    m'.next.wrapPc.pc = m.past False := by
  simp only [next, wrapPc, past, hpc, if_false]

theorem pc_scroll (m : Machine) (canvas : Canvas 128 64) :
    (m.scroll canvas).next.wrapPc.pc = m.past False :=
  pc_next m _ rfl

theorem pc_skipIf (m : Machine) {condition : Bool} {skipped : Prop} [Decidable skipped]
    (h : condition = true ↔ skipped) : (m.skipIf condition).wrapPc.pc = m.past skipped := by
  simp only [skipIf, wrapPc, past, h]

theorem pc_skipOnKey (h : m.WellFormed) (x : Register) {wanted : Bool} {skipped : Prop}
    [Decidable skipped] (hskipped : ∀ held, m.keys[(m.v.get x).toNat % 16]? = some held →
      (held = wanted ↔ skipped)) :
    (m.skipOnKey x wanted).1.wrapPc.pc = m.past skipped := by
  obtain ⟨held, hheld⟩ := key_eq h.inBounds (m.v.get x).toNat
  have hskip : m.skipOnKey x wanted = (m.skipIf (held == wanted)).done := by
    have hkey : m.keys[m.v[x].toNat % 16]? = some held := hheld
    simp only [skipOnKey, hkey]
  rw [hskip]
  exact pc_skipIf m (beq_iff_eq.trans (hskipped held hheld))

theorem pc_loadNumber (m : Machine) (x : Register) {n : Int} (hn : 0 ≤ n ∧ n < 256) :
    (m.loadNumber x n).1.wrapPc.pc = m.past False := by
  rw [loadNumber_eq m x hn]
  exact pc_next m _ rfl

theorem pc_waitKey (h : m.WellFormed) (x : Register) :
    (m.waitKey x).1.wrapPc.pc = Instruction.landing m (.waitKey x) := by
  unfold Instruction.landing
  by_cases hheld : true ∈ m.keys
  · obtain ⟨key, -, hwait⟩ := waitKey_of_held h.inBounds hheld x
    rw [hwait, if_pos hheld]
    exact pc_next m _ rfl
  · rw [waitKey_of_free hheld, if_neg hheld]
    exact Int.emod_eq_of_lt h.pc_mem.1 h.pc_mem.2

theorem pc_call (h : m.WellFormed) (target : Address) :
    (m.call target).1.wrapPc.pc = target.val := by
  obtain ⟨slot, hslot⟩ := exists_slot h.inBounds
  have htarget := target.isLt
  simp only [call, hslot, pick_natCast, done, wrapPc]
  omega

theorem pc_withFlags (m : Machine) {m' : Machine} {x : Register} (hpc : m'.pc = m.pc)
    (hdone : (m'.withFlags x).2 = none) : (m'.withFlags x).1.wrapPc.pc = m.past False := by
  unfold withFlags at hdone ⊢
  split at hdone
  · next hcount =>
    rw [if_pos hcount]
    exact pc_next m m' hpc
  · cases hdone

-- One case for each instruction.
theorem pc_perform (dice : Dice) (h : m.WellFormed) (i : Instruction) :
    (m.perform dice i).1.wrapPc.pc = i.landing m := by
  cases i with
  | jump target =>
    have hlands : (target.val : Int) % 4096 = target.val := by omega
    exact hlands
  | call target => exact pc_call h target
  | jumpPlus target => rfl
  | ret => rfl
  | exit => rfl
  | skipEq x byte => exact pc_skipIf m beq_iff_eq
  | skipNe x byte => exact pc_skipIf m bne_iff_ne
  | skipSame x y => exact pc_skipIf m beq_iff_eq
  | skipDiffer x y => exact pc_skipIf m bne_iff_ne
  | skipHeld x =>
    refine pc_skipOnKey h x ?_
    intro held hheld
    rw [Holds, hheld, Option.some.injEq]
  | skipFree x =>
    refine pc_skipOnKey h x ?_
    intro held hheld
    rw [Holds, hheld, Option.some.injEq, Bool.not_eq_true]
  | waitKey x => exact pc_waitKey h x
  | readDelay x => exact pc_loadNumber m x h.delay_mem
  | saveFlags x => exact pc_withFlags m rfl (inOrder_saveFlags h.inBounds x).1
  | loadFlags x => exact pc_withFlags m rfl (inOrder_loadFlags h.inBounds x).1
  | scrollRight => exact pc_scroll m _
  | scrollLeft => exact pc_scroll m _
  | _ => exact pc_next m _ rfl

theorem landing_withWord (m : Machine) (word : UInt16) (i : Instruction) :
    i.landing { m with word } = i.landing m := by
  cases i <;> rfl

theorem execute_word_lands (dice : Dice) (h : m.WellFormed) (i : Instruction) :
    ∃ m', m.execute dice i.word = done m' ∧ m'.pc = i.landing m := by
  refine ⟨_, execute_word dice h i, ?_⟩
  rw [pc_perform dice (wellFormed_withWord h i.word) i, landing_withWord]

-- Of two opposite conditions one holds.
theorem past_cases (m : Machine) (skipped : Prop) [Decidable skipped] :
    m.past skipped = (m.pc + 4) % 4096 ∧ m.past (¬ skipped) = (m.pc + 2) % 4096 ∨
      m.past skipped = (m.pc + 2) % 4096 ∧ m.past (¬ skipped) = (m.pc + 4) % 4096 := by
  by_cases hskipped : skipped
  · left
    simp only [past, hskipped, not_true_eq_false, if_true, if_false, and_self]
  · right
    simp only [past, hskipped, not_false_eq_true, if_true, if_false, and_self]

theorem landing_opposite (m : Machine) {i j : Instruction} (hij : i.opposite? = some j) :
    i.landing m = (m.pc + 4) % 4096 ∧ j.landing m = (m.pc + 2) % 4096 ∨
      i.landing m = (m.pc + 2) % 4096 ∧ j.landing m = (m.pc + 4) % 4096 := by
  cases i with
  | skipEq x byte =>
    obtain rfl := Option.some.inj hij
    exact past_cases m (m.v.get x = byte)
  | skipSame x y =>
    obtain rfl := Option.some.inj hij
    exact past_cases m (m.v.get x = m.v.get y)
  | skipHeld x =>
    obtain rfl := Option.some.inj hij
    exact past_cases m (m.Holds x)
  | _ => cases hij

-- Every word of the table leads where its instruction says, whatever it does besides. Of two
-- opposite skips at one place exactly one leaves out what follows.
theorem executeCode_lands (dice : Dice) (h : m.WellFormed) :
    (∀ code : Int, Word.Known (UInt16.ofInt code).toNat →
      ∃ i m', Instruction.ofWord? (UInt16.ofInt code) = some i ∧ i.word = UInt16.ofInt code ∧
        m.executeCode dice code = done m' ∧ m'.pc = i.landing m) ∧
    ∀ i j : Instruction, i.opposite? = some j →
      ∃ m₁ m₂, m.execute dice i.word = done m₁ ∧ m.execute dice j.word = done m₂ ∧
        (m₁.pc = (m.pc + 4) % 4096 ∧ m₂.pc = (m.pc + 2) % 4096 ∨
          m₁.pc = (m.pc + 2) % 4096 ∧ m₂.pc = (m.pc + 4) % 4096) := by
  constructor
  · intro code hknown
    obtain ⟨i, hi, hword⟩ := Instruction.exists_of_known hknown
    obtain ⟨m', hexecute, hpc⟩ := execute_word_lands dice h i
    rw [hword] at hexecute
    exact ⟨i, m', hi, hword, hexecute, hpc⟩
  · intro i j hij
    obtain ⟨m₁, hfirst, hpc₁⟩ := execute_word_lands dice h i
    obtain ⟨m₂, hsecond, hpc₂⟩ := execute_word_lands dice h j
    refine ⟨m₁, m₂, hfirst, hsecond, ?_⟩
    rw [hpc₁, hpc₂]
    exact landing_opposite m hij

-- At the end of memory: a store that overwrites its own word, and two opposite skips.
theorem executeCode_lands_atEnd :
    let dice : Dice := fun _ => 0
    let m := { powerOn.setV 1 7 with
      pc := 0xFFE, index := 0xFFE, ram := (powerOn.ram.write 0xFFE 0xF1).write 0xFFF 0x55 }
    m.WellFormed ∧ m.nextWord = 0xF155 ∧ Word.Known 0xF155 ∧
      (∃ m', m.executeCode dice 0xF155 = done m' ∧ m'.ram.readWord 0xFFE = 7 ∧ m'.pc = 0) ∧
      ∃ m₁ m₂, m.execute dice 0x3107 = done m₁ ∧ m.execute dice 0x4107 = done m₂ ∧
        (m₁.pc = 2 ∧ m₂.pc = 0 ∨ m₁.pc = 0 ∧ m₂.pc = 2) := by
  intro dice m
  have hwell : m.WellFormed := { powerOn_wellFormed with pc_mem := by decide, index_mem := by decide }
  have hknown : Word.Known (UInt16.ofInt 0xF155).toNat := by decide
  obtain ⟨hlands, hskips⟩ := executeCode_lands dice hwell
  obtain ⟨i, m', hi, hword, hexecute, hpc⟩ := hlands 0xF155 hknown
  obtain rfl : i = .store 1 := Option.some.inj (hi.symm.trans rfl)
  have hfetched : m.nextWord = 0xF155 := by
    simp [m, nextWord, Memory.readWord, Memory.read_write]
  have hstored : m'.ram = m.ram.writeAll 0xFFE [0, 7] := by
    have hstep := execute_word dice hwell (.store 1)
    rw [hword] at hstep
    exact congrArg (fun o => o.1.ram) (hexecute.symm.trans hstep)
  have hread : m'.ram.readWord 0xFFE = 7 := by
    simp [hstored, Memory.readWord, Memory.writeAll, Memory.read_write]
  have hequal : (Instruction.skipEq 1 7).word = 0x3107 := by decide
  have hdiffer : (Instruction.skipNe 1 7).word = 0x4107 := by decide
  have hopposite := hskips (.skipEq 1 7) (.skipNe 1 7) rfl
  rw [hequal, hdiffer] at hopposite
  exact ⟨hwell, hfetched, hknown, ⟨m', hexecute, hread, hpc⟩, hopposite⟩

end Machine

end SuperChip
