import SuperChip.Proofs.Machine.Run
import SuperChip.Proofs.Machine.Words
import Mathlib.Logic.Function.Iterate

-- Waiting for a key. While none is held a machine that has come to such a word stays as it is, however
-- often the word is executed and however the timers run meanwhile. With the first cycle that finds a
-- key held it has the lowest of them in a register and goes on.
namespace SuperChip.Machine

-- What may happen to a machine that waits: ticks, changes of its keys, and cycles as long as no key is
-- held.
def Idle (keys : List Bool) : List Action → Prop
  | [] => True
  | .cycle :: rest => true ∉ keys ∧ Idle keys rest
  | .tick :: rest => Idle keys rest
  | .hold keys' :: rest => Idle keys'.toList rest
  | _ :: _ => False

namespace Action

def isCycle : Action → Bool
  | .cycle => true
  | _ => false

def isTick : Action → Bool
  | .tick => true
  | _ => false

def keysAfter (keys : List Bool) : Action → List Bool
  | .hold keys' => keys'.toList
  | _ => keys

end Action

-- The keys are those last given to it, the timers have run down by the ticks, and from the first
-- cycle on the word is the one that it waits at. Nothing else is touched.
def waited (m : Machine) (actions : List Action) : Machine :=
  { m with
    word := if actions.any Action.isCycle then m.nextWord else m.word
    delay := countDown^[actions.countP Action.isTick] m.delay
    sound := countDown^[actions.countP Action.isTick] m.sound
    keys := actions.foldl Action.keysAfter m.keys }

variable {m : Machine} {x : Register} {actions : List Action}

-- One cycle of a machine that stands at such a word.
theorem cycle_waitKey (dice : Dice) (h : m.WellFormed)
    (hat : m.nextWord = Word.ofDigits 0xF x 0 0xA) :
    m.cycle dice = ({ m with word := m.nextWord }.waitKey x).1.wrapPc.done := by
  have hword : m.nextWord = (Instruction.waitKey x).word := hat
  rw [cycle, hword, execute_word dice h, perform]

theorem wrapPc_eq_self (h : m.WellFormed) : m.wrapPc = m := by
  rw [wrapPc, Int.emod_eq_of_lt h.pc_mem.1 h.pc_mem.2]

theorem cycle_of_free (dice : Dice) (h : m.WellFormed)
    (hat : m.nextWord = Word.ofDigits 0xF x 0 0xA) (hfree : true ∉ m.keys) :
    m.cycle dice = done { m with word := m.nextWord } := by
  have hfetched := wellFormed_withWord h m.nextWord
  rw [cycle_waitKey dice h hat, waitKey_of_free (m := { m with word := m.nextWord }) hfree]
  exact congrArg done (wrapPc_eq_self hfetched)

theorem cycle_of_held (dice : Dice) (h : m.WellFormed)
    (hat : m.nextWord = Word.ofDigits 0xF x 0 0xA) (hheld : true ∈ m.keys) :
    ∃ key : Fin 16, LowestHeld m.keys key ∧
      m.cycle dice = done { m.setV x (UInt8.ofNat key) with
        word := m.nextWord, pc := (m.pc + 2) % 4096 } := by
  have hfetched := wellFormed_withWord h m.nextWord
  obtain ⟨key, hlowest, hwait⟩ := waitKey_of_held hfetched.inBounds hheld x
  refine ⟨key, hlowest, ?_⟩
  rw [cycle_waitKey dice h hat, hwait]
  rfl

theorem run_idle (dice : Dice) (h : m.WellFormed)
    (hat : m.nextWord = Word.ofDigits 0xF x 0 0xA) (hidle : Idle m.keys actions) :
    m.run dice actions = m.waited actions := by
  induction actions generalizing m with
  | nil => rfl
  | cons action rest ih =>
    cases action with
    | cycle =>
      obtain ⟨hfree, hrest⟩ := hidle
      have hact : (m.act dice .cycle).1 = { m with word := m.nextWord } := by
        rw [act, cycle_of_free dice h hat hfree, ofOutcome, done]
      have hrun := ih (m := { m with word := m.nextWord }) (wellFormed_withWord h _) hat hrest
      rw [run, List.foldl_cons, hact]
      refine hrun.trans ?_
      simp [waited, Action.isCycle, Action.isTick, Action.keysAfter, nextWord]
    | tick =>
      have hcount : (.tick :: rest).countP Action.isTick = rest.countP Action.isTick + 1 :=
        List.countP_cons_of_pos rfl
      refine (ih (m := m.tick) (tick_wellFormed h) hat hidle).trans ?_
      simp [waited, tick, Action.isCycle, Action.keysAfter, nextWord, hcount]
    | hold keys =>
      refine (ih (m := { m with keys := keys.toList }) (hold_wellFormed h keys.length_toList)
        hat hidle).trans ?_
      simp [waited, Action.isCycle, Action.isTick, Action.keysAfter, nextWord]
    | load rom | execute code | reset | shiftRight x y | shiftLeft x y => exact hidle.elim

-- However long a machine has waited, with no key held it waits on, and with a key held, since when
-- ever, it takes the lowest and goes on.
theorem waits_for_key (dice : Dice) (h : m.WellFormed)
    (hat : m.nextWord = Word.ofDigits 0xF x 0 0xA) (hidle : Idle m.keys actions) :
    let m' := m.run dice actions
    m' = m.waited actions ∧
      (true ∉ m'.keys → m'.cycle dice = done { m' with word := m'.nextWord }) ∧
      (true ∈ m'.keys → ∃ key : Fin 16, LowestHeld m'.keys key ∧
        m'.cycle dice = done { m'.setV x (UInt8.ofNat key) with
          word := m'.nextWord, pc := (m'.pc + 2) % 4096 }) := by
  intro m'
  have hwell : m'.WellFormed := run_wellFormed dice h actions
  have hrun : m' = m.waited actions := run_idle dice h hat hidle
  have hstill : m'.nextWord = Word.ofDigits 0xF x 0 0xA := by
    rw [hrun]
    exact hat
  exact ⟨hrun, cycle_of_free dice hwell hstill, cycle_of_held dice hwell hstill⟩

-- Two cycles without a key and a tick between them, and then two keys at once.
theorem waits_for_key_pressed :
    let dice : Dice := fun _ => 0
    let m := { powerOn.withRom #[0xFF, 0x0A] with delay := 2 }
    let actions : List Action := [.cycle, .tick, .cycle, .hold (.ofFn fun k => k == 3 || k == 9)]
    m.WellFormed ∧ m.nextWord = Word.ofDigits 0xF 15 0 0xA ∧ Idle m.keys actions ∧
      true ∈ (m.run dice actions).keys ∧
      ∃ m', (m.run dice actions).cycle dice = done m' ∧ m'.v.get 15 = 3 ∧ m'.pc = 0x202 ∧
        m'.delay = 1 := by
  intro dice m actions
  have hwell : m.WellFormed :=
    withTimers_wellFormed (powerOn_wellFormed.withRom (by decide)) (by decide) (by decide)
  have hat : m.nextWord = Word.ofDigits 0xF (15 : Register) 0 0xA :=
    (nextWord_withRom 0xFF 0x0A).trans (by decide)
  have hidle : Idle m.keys actions := by
    simp only [actions, Idle, and_true]
    decide
  obtain ⟨hrun, -, hpressed⟩ := waits_for_key dice hwell hat hidle
  have hkeys : (m.run dice actions).keys = List.ofFn fun k : Fin 16 => k == 3 || k == 9 := by
    rw [hrun]
    exact Vector.toList_ofFn
  have hheld : true ∈ (m.run dice actions).keys := by
    rw [hkeys]
    decide
  obtain ⟨key, hlowest, hcycle⟩ := hpressed hheld
  have hlow : ∀ key : Fin 16,
      LowestHeld (List.ofFn fun k : Fin 16 => k == 3 || k == 9) key → key = 3 := by
    unfold LowestHeld
    decide
  obtain rfl := hlow key (hkeys ▸ hlowest)
  refine ⟨hwell, hat, hidle, hheld, _, hcycle, ?_⟩
  rw [hrun]
  exact ⟨rfl, rfl, rfl⟩

end SuperChip.Machine
