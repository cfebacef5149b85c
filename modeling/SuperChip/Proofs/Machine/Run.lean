import SuperChip.Proofs.Machine.Bounds
import SuperChip.Proofs.Machine.Memory

-- What somebody outside can do to a machine, in any order, and what every machine has in common
-- that was switched on and then only used in these ways.
namespace SuperChip.Machine

inductive Action where
  | load (rom : Array UInt8)
  -- any number may be given as a word
  | execute (code : Int)
  | cycle
  | tick
  | reset
  | shiftRight (x y : Register)
  | shiftLeft (x y : Register)
  | hold (keys : Vector Bool 16)

inductive Refusal where
  | fault (cause : Fault)
  | romTooLarge (cause : RomTooLarge)
  deriving DecidableEq

def ofOutcome (o : Outcome) : Machine × Option Refusal := (o.1, o.2.map .fault)

-- The machine after an action, also when the action was refused.
def act (dice : Dice) (m : Machine) : Action → Machine × Option Refusal
  | .load rom =>
    match m.load rom with
    | .ok m' => (m', none)
    | .error cause => (m, some (.romTooLarge cause))
  | .execute code => ofOutcome (m.executeCode dice code)
  | .cycle => ofOutcome (m.cycle dice)
  | .tick => (m.tick, none)
  | .reset => (m.reset, none)
  | .shiftRight x y => ofOutcome (m.shiftRightFrom x.val y.val)
  | .shiftLeft x y => ofOutcome (m.shiftLeftFrom x.val y.val)
  | .hold keys => ({ m with keys := keys.toList }, none)

def run (dice : Dice) (m : Machine) (actions : List Action) : Machine :=
  actions.foldl (fun m action => (m.act dice action).1) m

-- The refusals there are: words that are no instruction, and programs that are too large.
def Action.MayMeet : Action → Refusal → Prop
  | .load rom, .romTooLarge cause => maxRomSize < rom.size ∧ cause.size = rom.size
  | .execute code, .fault cause => ∃ address, cause = .unknownWord (UInt16.ofInt code) address
  | .cycle, .fault cause => ∃ word address, cause = .unknownWord word address
  | _, _ => False

variable {m : Machine}

theorem hold_wellFormed (h : m.WellFormed) {keys : List Bool} (hk : keys.length = 16) :
    WellFormed { m with keys } := { h with keys_length := hk }

-- Which bits are lost and what is left is of no account to the bounds.
theorem shiftFrom_of_pick {x y : Int} {i j : Register} (hx : pick .noByte x = .ok i)
    (hy : pick .noByte y = .ok j) (lost shifted : UInt8 → UInt8) :
    ∃ carry byte, m.shiftFrom x y lost shifted =
      (((m.setV flag carry).setV i byte).next.wrapPc).done := by
  refine ⟨lost m.v[j], shifted m.v[j], ?_⟩
  simp only [shiftFrom, hx, hy]

theorem shiftFrom_eq (m : Machine) (x y : Register) (lost shifted : UInt8 → UInt8) :
    ∃ carry byte, m.shiftFrom x.val y.val lost shifted =
      (((m.setV flag carry).setV x byte).next.wrapPc).done :=
  shiftFrom_of_pick (pick_natCast .noByte x) (pick_natCast .noByte y) lost shifted

theorem shifted_wellFormed (h : m.WellFormed) (x : Register) (lost shifted : UInt8) :
    (((m.setV flag lost).setV x shifted).next.wrapPc).WellFormed :=
  ((h.inBounds.setV flag lost).setV x shifted).next.wellFormed_wrapPc

theorem act_shiftRight (dice : Dice) (m : Machine) (x y : Register) :
    ∃ carry byte, m.act dice (.shiftRight x y) =
      (((m.setV flag carry).setV x byte).next.wrapPc, none) := by
  obtain ⟨carry, byte, hshift⟩ := shiftFrom_eq m x y (· &&& 1) (· >>> 1)
  refine ⟨carry, byte, ?_⟩
  simp only [act, shiftRightFrom, hshift, ofOutcome, done, Option.map_none]

theorem act_shiftLeft (dice : Dice) (m : Machine) (x y : Register) :
    ∃ carry byte, m.act dice (.shiftLeft x y) =
      (((m.setV flag carry).setV x byte).next.wrapPc, none) := by
  obtain ⟨carry, byte, hshift⟩ := shiftFrom_eq m x y (· >>> 7) (· <<< 1)
  refine ⟨carry, byte, ?_⟩
  simp only [act, shiftLeftFrom, hshift, ofOutcome, done, Option.map_none]

theorem act_wellFormed (dice : Dice) (h : m.WellFormed) (action : Action) :
    (m.act dice action).1.WellFormed := by
  cases action with
  | load rom =>
    by_cases hrom : rom.size ≤ maxRomSize
    · simp only [act, load_of_fits hrom]
      exact h.withRom hrom
    · simp only [act, load_of_large (Nat.lt_of_not_le hrom)]
      exact h
  | execute code =>
    simp only [act, ofOutcome, executeCode]
    exact execute_wellFormed dice h _
  | cycle =>
    simp only [act, ofOutcome, Machine.cycle]
    exact execute_wellFormed dice h _
  | tick =>
    simp only [act]
    exact tick_wellFormed h
  | reset =>
    simp only [act]
    exact h.inBounds.reset
  | shiftRight x y =>
    obtain ⟨carry, byte, hact⟩ := act_shiftRight dice m x y
    rw [hact]
    exact shifted_wellFormed h x carry byte
  | shiftLeft x y =>
    obtain ⟨carry, byte, hact⟩ := act_shiftLeft dice m x y
    rw [hact]
    exact shifted_wellFormed h x carry byte
  | hold keys =>
    simp only [act]
    exact hold_wellFormed h keys.length_toList

theorem mayMeet_act (dice : Dice) (h : m.WellFormed) (action : Action) {refusal : Refusal}
    (hr : (m.act dice action).2 = some refusal) : action.MayMeet refusal := by
  cases action with
  | load rom =>
    by_cases hrom : rom.size ≤ maxRomSize
    · simp [act, load_of_fits hrom] at hr
    · have hlarge := Nat.lt_of_not_le hrom
      simp only [act, load_of_large hlarge, Option.some.injEq] at hr
      subst hr
      exact ⟨hlarge, rfl⟩
  | execute code =>
    obtain ⟨fault, hf, rfl⟩ := Option.map_eq_some_iff.mp hr
    exact ⟨m.pc, (fault_execute dice h hf).2⟩
  | cycle =>
    obtain ⟨fault, hf, rfl⟩ := Option.map_eq_some_iff.mp hr
    exact ⟨m.nextWord, m.pc, (fault_execute dice h hf).2⟩
  | tick => simp [act] at hr
  | reset => simp [act] at hr
  | shiftRight x y =>
    obtain ⟨carry, byte, hact⟩ := act_shiftRight dice m x y
    rw [hact] at hr
    cases hr
  | shiftLeft x y =>
    obtain ⟨carry, byte, hact⟩ := act_shiftLeft dice m x y
    rw [hact] at hr
    cases hr
  | hold keys => simp [act] at hr

theorem run_wellFormed (dice : Dice) (h : m.WellFormed) (actions : List Action) :
    (m.run dice actions).WellFormed := by
  induction actions generalizing m with
  | nil => exact h
  | cons action rest ih => exact ih (act_wellFormed dice h action)

theorem toList_withRom (m : Machine) {rom : Array UInt8} (hrom : rom.size ≤ maxRomSize) :
    (m.withRom rom).ram.toList = Memory.overwrite m.ram.toList programStart rom.toList := by
  refine Memory.toList_writeAll m.ram programStart rom.toList ?_
  simp only [maxRomSize, programStart, Array.length_toList] at hrom ⊢
  omega

theorem length_overwrite_program (ram : Memory) {rom : Array UInt8}
    (hrom : rom.size ≤ maxRomSize) :
    (Memory.overwrite ram.toList programStart rom.toList).length = 4096 := by
  rw [Memory.length_overwrite, Vector.length_toList]
  simp only [maxRomSize, programStart, Array.length_toList, Vector.length_toList] at hrom ⊢
  omega

theorem toList_withFonts :
    Memory.withFonts.toList =
      Memory.overwrite (Memory.overwrite (List.replicate 4096 0) Font.lowStart Font.low)
        Font.highStart Font.high := by
  have hlow : (Memory.blank.writeAll Font.lowStart Font.low).toList =
      Memory.overwrite (List.replicate 4096 0) Font.lowStart Font.low := by
    rw [Memory.toList_writeAll _ _ _ (by rw [Font.length_low]; decide), Memory.blank,
      Vector.toList_replicate]
  rw [Memory.withFonts, Memory.toList_writeAll _ _ _ (by rw [Font.length_high]; decide), hlow]

-- Memory after a reset: zeros, and over them the fonts and the program.
def freshBytes (rom : Array UInt8) : List UInt8 :=
  Memory.overwrite
    (Memory.overwrite (Memory.overwrite (List.replicate 4096 0) Font.lowStart Font.low)
      Font.highStart Font.high) programStart rom.toList

theorem toList_reset (m : Machine) (hrom : m.rom.size ≤ maxRomSize) :
    m.reset.ram.toList = freshBytes m.rom := by
  have hload := toList_withRom powerOn hrom
  rw [freshBytes, ← toList_withFonts]
  exact hload

theorem length_freshBytes {rom : Array UInt8} (hrom : rom.size ≤ maxRomSize) :
    (freshBytes rom).length = 4096 := by
  rw [freshBytes, ← toList_withFonts]
  exact length_overwrite_program Memory.withFonts hrom

-- Whole stretches of memory are written over as many bytes as there are, so that memory keeps its
-- size: by a program that is loaded, and at a reset by the fonts as well.
def Action.Overwrites (m m' : Machine) : Action → Prop
  | .load rom =>
    if rom.size ≤ maxRomSize then
      m'.ram.toList = Memory.overwrite m.ram.toList programStart rom.toList ∧
        (Memory.overwrite m.ram.toList programStart rom.toList).length = 4096
    else m' = m
  | .reset =>
    m'.ram.toList = freshBytes m.rom ∧ (freshBytes m.rom).length = 4096
  | _ => True

theorem overwrites_act (dice : Dice) (h : m.WellFormed) (action : Action) :
    action.Overwrites m (m.act dice action).1 := by
  cases action with
  | load rom =>
    by_cases hrom : rom.size ≤ maxRomSize
    · simp only [Action.Overwrites, act, load_of_fits hrom, hrom, if_true]
      exact ⟨toList_withRom m hrom, length_overwrite_program m.ram hrom⟩
    · simp only [Action.Overwrites, act, load_of_large (Nat.lt_of_not_le hrom), hrom, if_false]
  | reset =>
    exact ⟨toList_reset m h.rom_size, length_freshBytes h.rom_size⟩
  | execute code => trivial
  | cycle => trivial
  | tick => trivial
  | shiftRight x y => trivial
  | shiftLeft x y => trivial
  | hold keys => trivial

-- Memory, registers, flags and pixels have their ranges, and memory, registers and canvas their
-- sizes, by their types; the rest of well-formedness holds after every action of every run, and
-- nothing but the two known refusals is ever met.
theorem run_powerOn_safe (dice : Dice) (actions : List Action) (action : Action) :
    let m := powerOn.run dice actions
    let (m', refusal) := m.act dice action
    m'.WellFormed ∧ (∀ cause ∈ refusal, action.MayMeet cause) ∧ action.Overwrites m m' := by
  have h := run_wellFormed dice powerOn_wellFormed actions
  refine ⟨act_wellFormed dice h action, ?_, overwrites_act dice h action⟩
  intro cause hcause
  exact mayMeet_act dice h action hcause

end SuperChip.Machine
