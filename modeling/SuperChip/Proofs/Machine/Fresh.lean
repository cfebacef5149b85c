import SuperChip.Proofs.Machine.Footprint
import SuperChip.Proofs.Machine.Run

-- A machine that was reset is a new one with the same program. It only goes on where it was in the
-- source of randomness, and nothing that it does later tells the two apart.
namespace SuperChip

-- What is still to be drawn after some draws.
def Dice.after (dice : Dice) (k : Nat) : Dice := fun n => dice (k + n)

namespace Machine

-- The same machine after that many draws more.
def rolled (k : Nat) (m : Machine) : Machine := { m with rolls := k + m.rolls }

variable {m : Machine} {k : Nat}

theorem scroll_rolled (m : Machine) (canvas : Canvas 128 64) :
    ((m.rolled k).scroll canvas).next.done = (m.scroll canvas).next.done.map (rolled k) id := rfl

theorem registers_rolled (m : Machine) (v : Vector UInt8 16) :
    { m.rolled k with v }.next.done = { m with v }.next.done.map (rolled k) id := rfl

theorem skipOnKey_rolled (m : Machine) (x : Register) (wanted : Bool) :
    (m.rolled k).skipOnKey x wanted = (m.skipOnKey x wanted).map (rolled k) id := by
  have hkey : (m.rolled k).keys[(m.rolled k).v[x].toNat % 16]? = m.keys[m.v[x].toNat % 16]? := rfl
  unfold skipOnKey
  rw [hkey]
  cases m.keys[m.v[x].toNat % 16]? <;> rfl

theorem loadNumber_rolled (m : Machine) (x : Register) (n : Int) :
    (m.rolled k).loadNumber x n = (m.loadNumber x n).map (rolled k) id := by
  unfold loadNumber
  cases isByte n <;> rfl

theorem waitKey_rolled (m : Machine) (x : Register) :
    (m.rolled k).waitKey x = (m.waitKey x).map (rolled k) id := by
  have hkeys : (m.rolled k).keys = m.keys := rfl
  unfold waitKey
  rw [hkeys]
  cases m.keys.findIdx? id with
  | none => rfl
  | some key => exact loadNumber_rolled m x key

theorem call_rolled (m : Machine) (target : Address) :
    (m.rolled k).call target = (m.call target).map (rolled k) id := by
  have hsp : (m.rolled k).sp = m.sp := rfl
  unfold call
  rw [hsp]
  cases pick .noSlot m.sp <;> rfl

theorem withFlags_rolled (m : Machine) (x : Register) :
    (m.rolled k).withFlags x = (m.withFlags x).map (rolled k) id := by
  have hflags : (m.rolled k).flags = m.flags := rfl
  unfold withFlags
  rw [hflags]
  split <;> rfl

theorem shiftFrom_rolled (m : Machine) (x y : Int) (lost shifted : UInt8 → UInt8) :
    (m.rolled k).shiftFrom x y lost shifted = (m.shiftFrom x y lost shifted).map (rolled k) id := by
  unfold shiftFrom
  cases pick .noByte y with
  | error fault => rfl
  | ok y => cases pick .noByte x <;> rfl

-- One case for each instruction.
theorem perform_rolled (dice : Dice) (m : Machine) (i : Instruction) :
    (m.rolled k).perform dice i = (m.perform (dice.after k) i).map (rolled k) id := by
  cases i with
  | scrollDown rows => exact scroll_rolled m (m.canvas.scrollDown rows.val)
  | scrollRight => exact scroll_rolled m (m.canvas.scrollRight 4)
  | scrollLeft => exact scroll_rolled m (m.canvas.scrollLeft 4)
  | call target => exact call_rolled m target
  | skipHeld x => exact skipOnKey_rolled m x true
  | skipFree x => exact skipOnKey_rolled m x false
  | readDelay x => exact loadNumber_rolled m x m.delay
  | waitKey x => exact waitKey_rolled m x
  | restore x => exact registers_rolled m (m.restore x).v
  | saveFlags x => exact withFlags_rolled { m with flags := _ } x
  | loadFlags x => exact withFlags_rolled { m with v := _ } x
  -- the rest never looks at the number of draws, but for the next byte that is drawn
  | _ => rfl

theorem execute_rolled (dice : Dice) (m : Machine) (word : UInt16) :
    (m.rolled k).execute dice word = (m.execute (dice.after k) word).map (rolled k) id := by
  have hword : { m.rolled k with word } = ({ m with word } : Machine).rolled k := rfl
  unfold execute
  rw [hword]
  cases Instruction.ofWord? word with
  | none => rfl
  | some i =>
    simp only [perform_rolled]
    cases ({ m with word } : Machine).perform (dice.after k) i with
    | mk m' fault? => cases fault? <;> rfl

theorem ofOutcome_rolled (o : Outcome) :
    ofOutcome (o.map (rolled k) id) = (ofOutcome o).map (rolled k) id := rfl

theorem act_rolled (dice : Dice) (m : Machine) (action : Action) :
    (m.rolled k).act dice action = (m.act (dice.after k) action).map (rolled k) id := by
  cases action with
  | load rom =>
    by_cases hrom : rom.size ≤ maxRomSize
    · simp only [act, load_of_fits hrom]
      rfl
    · simp only [act, load_of_large (Nat.lt_of_not_le hrom)]
      rfl
  | execute code => exact congrArg ofOutcome (execute_rolled dice m _)
  | cycle => exact congrArg ofOutcome (execute_rolled dice m m.nextWord)
  | tick => rfl
  | reset => rfl
  | shiftRight x y =>
    rw [act, shiftRightFrom, shiftFrom_rolled]
    exact ofOutcome_rolled _
  | shiftLeft x y =>
    rw [act, shiftLeftFrom, shiftFrom_rolled]
    exact ofOutcome_rolled _
  | hold keys => rfl

theorem run_rolled (dice : Dice) (m : Machine) (actions : List Action) :
    (m.rolled k).run dice actions = (m.run (dice.after k) actions).rolled k := by
  induction actions generalizing m with
  | nil => rfl
  | cons action rest ih =>
    have hact : ((m.rolled k).act dice action).1 = (m.act (dice.after k) action).1.rolled k := by
      rw [act_rolled]
      rfl
    simp only [run, List.foldl_cons, hact]
    exact ih _

theorem rom_not_mem_parts (m : Machine) (i : Instruction) : .rom ∉ i.parts m := by
  cases i <;> simp [Instruction.parts, Part.cells, Part.registersTo, Part.storedFlagsTo]

theorem rom_perform (dice : Dice) (m : Machine) (i : Instruction) :
    (m.perform dice i).1.rom = m.rom := by
  by_cases hexit : i = .exit
  · subst hexit
    rfl
  · exact only_perform dice m hexit .rom (rom_not_mem_parts m i)

-- No word changes the program that is kept, not even the one that starts it anew.
theorem rom_execute (dice : Dice) (m : Machine) (word : UInt16) :
    (m.execute dice word).1.rom = m.rom := by
  unfold execute
  cases Instruction.ofWord? word with
  | none => rfl
  | some i =>
    have hrom := rom_perform dice { m with word } i
    rcases hperform : ({ m with word } : Machine).perform dice i with ⟨m', _ | fault⟩ <;>
      simp only [hperform] at hrom ⊢ <;> exact hrom

-- The program that an action puts into a machine. One that is too large is refused.
def Action.loaded? : Action → Option (Array UInt8)
  | .load rom => if rom.size ≤ maxRomSize then some rom else none
  | _ => none

def lastLoaded (actions : List Action) : Option (Array UInt8) :=
  (actions.filterMap Action.loaded?).getLast?

-- A new machine, with a program loaded into it if there is one.
def fresh : Option (Array UInt8) → Except RomTooLarge Machine
  | none => .ok powerOn
  | some rom => powerOn.load rom

theorem rom_act (dice : Dice) (m : Machine) (action : Action) :
    (m.act dice action).1.rom = action.loaded?.getD m.rom := by
  cases action with
  | load rom =>
    by_cases hrom : rom.size ≤ maxRomSize
    · simp only [act, load_of_fits hrom, Action.loaded?, hrom, if_true, Option.getD_some]
      rfl
    · simp only [act, load_of_large (Nat.lt_of_not_le hrom), Action.loaded?, hrom, if_false,
        Option.getD_none]
  | execute code => exact rom_execute dice m _
  | cycle => exact rom_execute dice m m.nextWord
  | tick => rfl
  | reset => rfl
  | shiftRight x y =>
    obtain ⟨carry, byte, hact⟩ := act_shiftRight dice m x y
    rw [hact]
    rfl
  | shiftLeft x y =>
    obtain ⟨carry, byte, hact⟩ := act_shiftLeft dice m x y
    rw [hact]
    rfl
  | hold keys => rfl

theorem lastLoaded_cons (action : Action) (rest : List Action) :
    lastLoaded (action :: rest) = (lastLoaded rest).or action.loaded? := by
  simp only [lastLoaded, List.filterMap_cons]
  cases action.loaded? with
  | none => simp
  | some rom => simp [List.getLast?_cons]

theorem rom_run (dice : Dice) (m : Machine) (actions : List Action) :
    (m.run dice actions).rom = (lastLoaded actions).getD m.rom := by
  induction actions generalizing m with
  | nil => rfl
  | cons action rest ih =>
    have hrest := ih (m.act dice action).1
    rw [rom_act] at hrest
    rw [lastLoaded_cons]
    refine hrest.trans ?_
    cases lastLoaded rest <;> rfl

theorem size_le_of_lastLoaded {actions : List Action} {rom : Array UInt8}
    (h : lastLoaded actions = some rom) : rom.size ≤ maxRomSize := by
  obtain ⟨action, -, hloaded⟩ := List.mem_filterMap.mp (List.mem_of_getLast? h)
  cases action with
  | load other =>
    simp only [Action.loaded?, Option.ite_none_right_eq_some, Option.some.injEq] at hloaded
    exact hloaded.2 ▸ hloaded.1
  | _ => cases hloaded

theorem withRom_empty (hrom : m.rom = #[]) : m.withRom #[] = m := by
  cases m
  cases hrom
  rfl

theorem fresh_lastLoaded (actions : List Action) :
    fresh (lastLoaded actions) = .ok (powerOn.withRom ((lastLoaded actions).getD #[])) := by
  cases h : lastLoaded actions with
  | none => exact congrArg Except.ok (withRom_empty rfl).symm
  | some rom => exact load_of_fits (size_le_of_lastLoaded h)

-- From wherever a machine has got to, a reset makes it the new machine with the program that was
-- loaded last, and leaves it only its place in the source of randomness. The program has fitted
-- once, so that it is not refused when it is taken again.
theorem reset_fresh (dice : Dice) (actions : List Action) :
    let m := powerOn.run dice actions
    ∃ m₀, fresh (lastLoaded actions) = .ok m₀ ∧
      { powerOn with rom := m.rom, rolls := m.rolls }.load m.rom = .ok m.reset ∧
      m.act dice .reset = ({ m₀ with rolls := m.rolls }, none) ∧
      m.act dice (.execute 0x00FD) = ({ m₀ with rolls := m.rolls }, none) ∧
      (∀ (m : Machine) (word : UInt16), (m.execute dice word).1.rom = m.rom) ∧
      ∀ later next,
        let dice₀ := dice.after m.rolls
        let (m₁, refusal) := (m₀.run dice₀ later).act dice₀ next
        (m.reset.run dice later).act dice next = (m₁.rolled m.rolls, refusal) := by
  intro m
  have hrom : m.rom = (lastLoaded actions).getD #[] := rom_run dice powerOn actions
  have hfits : m.rom.size ≤ maxRomSize :=
    (run_wellFormed dice powerOn_wellFormed actions).rom_size
  have hreset : m.reset = (powerOn.withRom m.rom).rolled m.rolls := rfl
  refine ⟨powerOn.withRom m.rom, ?_, load_of_fits hfits, rfl, rfl, rom_execute dice, ?_⟩
  · rw [hrom]
    exact fresh_lastLoaded actions
  · intro later next
    rw [hreset, run_rolled, act_rolled]
    rfl

end Machine

end SuperChip
