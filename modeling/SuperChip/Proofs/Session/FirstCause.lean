import SuperChip.Proofs.Channel.Usage
import SuperChip.Proofs.Session.Sound

-- What is left of an emulation loop that meets a word which is no instruction. The loop notes the
-- word and then tells the screen. If the other end has closed that channel, being refused is what is
-- noted in the end, and the word is lost. In a session nobody closes it before, so that the word is
-- what the session reports.
namespace SuperChip

namespace Emulator.State

variable {α : Type} {s : State α} [Sub α] [LT α] [DecidableLT α]

-- The word is noted before the screen is told.
theorem whenCycleDue_of_unknown (dice : Dice) {now : α} (hruns : s.cycleRuns now = true)
    (hword : Instruction.ofWord? s.emulator.machine.nextWord = none) :
    let cause := Fault.unknownWord s.emulator.machine.nextWord s.emulator.machine.pc
    ∃ t : State α,
      s.whenCycleDue now (cycle dice) = (t.send (.fault cause.message)).andThen .stop ∧
        t.link = s.link ∧ t.emulator.fault = some (.machine cause) := by
  intro cause
  have hcycle : s.emulator.machine.cycle dice =
      ({ s.emulator.machine with word := s.emulator.machine.nextWord }, some cause) :=
    Machine.execute_of_unknown dice s.emulator.machine hword
  rw [whenCycleDue_eq, if_pos hruns]
  simp only [cycle, cyclePolled, hcycle, cause]
  exact ⟨_, rfl, rfl, rfl⟩

end Emulator.State

namespace Session

-- The next part of the loop executes a word that is no instruction.
def Race.MeetsUnknown {α : Type} [Sub α] [LT α] [DecidableLT α] (now : α) (r : Race α) : Prop :=
  r.emulatorAt = .cycling ∧ r.session.emulatorState.cycleRuns now = true ∧
    Instruction.ofWord? r.session.emulator.machine.nextWord = none

namespace Exposed

-- A loop whose channels others use as they like, between any two parts of its turns.
inductive Move (α : Type) where
  | emulator (now : α)
  | orders (request : Channel.Request Message)
  | news (request : Channel.Request Message)

end Exposed

variable {α : Type} {r : Race α} {fault : Failure}

section Moves

variable [Sub α] [LT α] [DecidableLT α]

def Race.exposedMove (dice : Dice) (r : Race α) : Exposed.Move α → Race α
  | .emulator now => r.emulatorMove dice now
  | .orders request =>
    { r with session.link.toEmulator := (r.session.link.toEmulator.serve request).2 }
  | .news request =>
    { r with session.link.toScreen := (r.session.link.toScreen.serve request).2 }

def Race.exposedRun (dice : Dice) (r : Race α) (moves : List (Exposed.Move α)) : Race α :=
  moves.foldl (exposedMove dice) r

end Moves

-- A loop that takes no more turns, and what it has noted.
structure Race.GaveUp (fault : Failure) (r : Race α) : Prop where
  isOver : r.emulatorAt.isOver = true
  fault : r.session.emulator.fault = some fault

-- Besides, nothing got in its way that it does not deal with, and by the time that it is over it has
-- closed the channel to the screen.
structure Race.EndsWell (fault : Failure) (r : Race α) : Prop extends r.GaveUp fault where
  expected : ∀ cause, .failed cause ∈ r.history → cause.isExpected = true
  ended : r.emulatorAt = .ended →
    r.session.emulator.running = false ∧ r.session.link.toScreen.closed = true

-- As long as it goes on, nothing has got in its way at all.
def Race.Calm (r : Race α) : Prop :=
  r.emulatorAt.isOver = false → ∀ cause, .failed cause ∉ r.history

theorem failed_of_emulatorPart {did : List Happening} {next : EmulatorStage}
    {result : Emulator.Result α} {cause : Failure} (hwork : ∀ x ∈ did, x.IsWork)
    (hmem : .failed cause ∈ (r.emulatorPart did next result).history) :
    .failed cause ∈ r.history ∨ .failed cause ∈ failures result := by
  simp only [Race.emulatorPart, List.mem_append, List.mem_map, reduceCtorEq, and_false,
    exists_false, or_false] at hmem
  rcases hmem with (hold | hdid) | hnew
  · exact .inl hold
  · exact absurd (hwork _ hdid) id
  · exact .inr hnew

theorem Race.Calm.emulatorPart (h : r.Calm) (hat : r.emulatorAt.isOver = false)
    {did : List Happening} (hwork : ∀ x ∈ did, x.IsWork) (next : EmulatorStage)
    (result : Emulator.Result α) : (r.emulatorPart did next result).Calm := by
  intro hgoing cause hmem
  rcases failed_of_emulatorPart hwork hmem with hold | hnew
  · exact h hat cause hold
  · cases result with
    | goOn e => cases hnew
    | stop e => cases hnew
    | fail e cause => cases hgoing

section Run

variable [Sub α] [LT α] [DecidableLT α]

theorem Race.Calm.emulatorMove (h : r.Calm) (dice : Dice) (now : α) :
    (r.emulatorMove dice now).Calm := by
  cases hstage : r.emulatorAt with
  | starting =>
    simp only [Race.emulatorMove, hstage]
    exact fun _ => h (by rw [hstage]; rfl)
  | listening =>
    have hat : r.emulatorAt.isOver = false := by rw [hstage]; rfl
    simp only [Race.emulatorMove, hstage]
    split
    · split
      · exact h.emulatorPart hat (by simp) _ _
      · exact h.emulatorPart hat (by simp) _ _
    · intro hgoing
      cases hgoing
  | answering message =>
    simp only [Race.emulatorMove, hstage]
    exact h.emulatorPart (by rw [hstage]; rfl) (by simp) _ _
  | cycling =>
    simp only [Race.emulatorMove, hstage]
    refine h.emulatorPart (by rw [hstage]; rfl) ?_ _ _
    split <;> simp [Happening.IsWork]
  | ticking =>
    simp only [Race.emulatorMove, hstage]
    refine h.emulatorPart (by rw [hstage]; rfl) ?_ _ _
    split <;> simp [Happening.IsWork]
  | closing =>
    simp only [Race.emulatorMove, hstage]
    intro hgoing
    cases hgoing
  | ended =>
    simp only [Race.emulatorMove, hstage]
    exact h

theorem Race.Calm.exposedRun (h : r.Calm) (dice : Dice) (moves : List (Exposed.Move α)) :
    (r.exposedRun dice moves).Calm := by
  induction moves generalizing r with
  | nil => exact h
  | cons move rest ih =>
    cases move with
    | emulator now => exact ih (h.emulatorMove dice now)
    | orders request => exact ih h
    | news request => exact ih h

-- Being refused comes after the word is noted, and takes its place.
theorem Race.MeetsUnknown.endsWell {now : α} (h : r.MeetsUnknown now) (hcalm : r.Calm)
    (dice : Dice) :
    (r.emulatorMove dice now).EndsWell
      (if r.session.link.toScreen.closed then .channel (.sending r.session.link.toScreen.name)
        else .machine (.unknownWord r.session.emulator.machine.nextWord
          r.session.emulator.machine.pc)) := by
  obtain ⟨hstage, hruns, hword⟩ := h
  have hnone := hcalm (by rw [hstage]; rfl)
  obtain ⟨t, hpart, hlink, hfault⟩ := Emulator.State.whenCycleDue_of_unknown dice hruns hword
  have hscreen : t.link.toScreen = r.session.link.toScreen := congrArg Link.toScreen hlink
  simp only [Race.emulatorMove, hstage, hruns, if_true, hpart]
  cases hclosed : r.session.link.toScreen.closed with
  | true =>
    rw [Emulator.State.send_of_closed (hscreen ▸ hclosed), hscreen, Turn.andThen_fail]
    refine ⟨⟨rfl, rfl⟩, ?_, ?_⟩
    · intro cause hmem
      rcases failed_of_emulatorPart (by simp [Happening.IsWork]) hmem with hold | hnew
      · exact absurd hold (hnone cause)
      · obtain rfl : cause = _ := Happening.failed.inj (List.mem_singleton.mp hnew)
        rfl
    · intro hended
      cases hended
  | false =>
    rw [Emulator.State.send_of_open (hscreen ▸ hclosed), Turn.andThen_goOn]
    refine ⟨⟨rfl, hfault⟩, ?_, ?_⟩
    · intro cause hmem
      rcases failed_of_emulatorPart (by simp [Happening.IsWork]) hmem with hold | hnew
      · exact absurd hold (hnone cause)
      · cases hnew
    · intro hended
      cases hended

theorem Race.exposedRun_cons (dice : Dice) (r : Race α) (move : Exposed.Move α)
    (moves : List (Exposed.Move α)) :
    r.exposedRun dice (move :: moves) = (r.exposedMove dice move).exposedRun dice moves :=
  List.foldl_cons ..

-- A loop that has given up only finishes.
theorem emulatorMove_of_isOver (hover : r.emulatorAt.isOver = true) (dice : Dice) (now : α) :
    r.emulatorMove dice now = { r with session := r.session.finishEmulator, emulatorAt := .ended } ∨
      r.emulatorAt = .ended ∧ r.emulatorMove dice now = r := by
  cases hstage : r.emulatorAt with
  | closing =>
    left
    simp only [Race.emulatorMove, hstage]
  | ended =>
    right
    simp only [Race.emulatorMove, hstage, and_self]
  | _ =>
    rw [hstage] at hover
    cases hover

theorem Race.GaveUp.emulatorMove (h : r.GaveUp fault) (dice : Dice) (now : α) :
    (r.emulatorMove dice now).GaveUp fault := by
  rcases emulatorMove_of_isOver h.isOver dice now with hfinish | ⟨-, hsame⟩
  · rw [hfinish]
    exact ⟨rfl, h.fault⟩
  · rw [hsame]
    exact h

-- The other side does nothing to the emulator.
theorem presenterMove_emulator (r : Race α) (input : Option InputEvent) (now : α) :
    (r.presenterMove input now).emulatorAt = r.emulatorAt ∧
      (r.presenterMove input now).session.emulator = r.session.emulator := by
  unfold Race.presenterMove
  cases r.presenterAt with
  | watching =>
    rcases input with _ | event
    · exact ⟨rfl, rfl⟩
    · cases event <;> exact ⟨rfl, rfl⟩
  | _ => exact ⟨rfl, rfl⟩

theorem Race.GaveUp.run (h : r.GaveUp fault) (dice : Dice)
    (moves : List (Move α)) : (r.run dice moves).GaveUp fault := by
  induction moves generalizing r with
  | nil => exact h
  | cons move rest ih =>
    cases move with
    | emulator now => exact ih (h.emulatorMove dice now)
    | presenter input now =>
      obtain ⟨hat, hemulator⟩ := presenterMove_emulator r input now
      exact ih ⟨(congrArg _ hat).trans h.isOver, (congrArg _ hemulator).trans h.fault⟩

-- Others cannot undo what the loop leaves.
theorem Race.EndsWell.exposedMove (h : r.EndsWell fault) (dice : Dice) (move : Exposed.Move α) :
    (r.exposedMove dice move).EndsWell fault := by
  cases move with
  | emulator now =>
    rcases emulatorMove_of_isOver h.isOver dice now with hfinish | ⟨-, hsame⟩
    · rw [Race.exposedMove, hfinish]
      exact ⟨⟨rfl, h.fault⟩, h.expected, fun _ => ⟨rfl, rfl⟩⟩
    · rw [Race.exposedMove, hsame]
      exact h
  | orders request => exact ⟨⟨h.isOver, h.fault⟩, h.expected, h.ended⟩
  | news request =>
    refine ⟨⟨h.isOver, h.fault⟩, h.expected, ?_⟩
    intro hat
    obtain ⟨hrunning, hclosed⟩ := h.ended hat
    exact ⟨hrunning, Channel.closed_serve hclosed request⟩

theorem Race.EndsWell.exposedRun (h : r.EndsWell fault) (dice : Dice)
    (moves : List (Exposed.Move α)) : (r.exposedRun dice moves).EndsWell fault := by
  induction moves generalizing r with
  | nil => exact h
  | cons move rest ih => exact ih (h.exposedMove dice move)

-- It takes one more move of its own.
theorem Race.EndsWell.ended_exposedRun (h : r.EndsWell fault) (dice : Dice)
    {moves : List (Exposed.Move α)}
    (hmoves : r.emulatorAt = .ended ∨ ∃ now, .emulator now ∈ moves) :
    (r.exposedRun dice moves).emulatorAt = .ended := by
  induction moves generalizing r with
  | nil => exact hmoves.elim id fun ⟨_, hmem⟩ => absurd hmem List.not_mem_nil
  | cons move rest ih =>
    refine ih (h.exposedMove dice move) ?_
    cases move with
    | emulator now =>
      left
      rcases emulatorMove_of_isOver h.isOver dice now with hfinish | ⟨hat, hsame⟩
      · rw [Race.exposedMove, hfinish]
      · rw [Race.exposedMove, hsame, hat]
    | orders request =>
      exact hmoves.imp id fun ⟨now, hmem⟩ => ⟨now, by simpa using hmem⟩
    | news request =>
      exact hmoves.imp id fun ⟨now, hmem⟩ => ⟨now, by simpa using hmem⟩

-- A loop that meets a word which is no instruction, whatever others do to its channels, comes to its
-- end and lets nothing through. If the channel to the screen is open at that moment, what it has
-- noted is the word and its address, and otherwise that it was refused. In a session, however the two
-- sides are held up, the channel is open, and the session reports the word.
theorem unknown_word_noted (dice : Dice) :
    (∀ (r : Race α) (earlier later : List (Exposed.Move α)) (now : α), r.history = [] →
      let r₁ := r.exposedRun dice earlier
      let r₂ := r₁.exposedRun dice (.emulator now :: later)
      let m := r₁.session.emulator.machine
      let c := r₁.session.link.toScreen
      r₁.MeetsUnknown now → (∃ time, .emulator time ∈ later) →
        r₂.emulatorAt = .ended ∧
        (∀ cause, .failed cause ∈ r₂.history → cause.isExpected = true) ∧
        r₂.session.emulator.running = false ∧ r₂.session.link.toScreen.closed = true ∧
        r₂.session.emulator.fault =
          some (if c.closed then .channel (.sending c.name)
            else .machine (.unknownWord m.nextWord m.pc))) ∧
    ∀ {rom : Array UInt8} {machine : Machine}, Machine.powerOn.load rom = .ok machine →
      ∀ (cycleRate timerRate refreshRate : RateLimiter α) (earlier later : List (Move α)) (now : α),
        (∀ move ∈ earlier, move.IsWhole) →
        let r₁ := (Race.started machine cycleRate timerRate refreshRate).run dice earlier
        let r₂ := r₁.run dice (.emulator now :: later)
        let m := r₁.session.emulator.machine
        r₁.MeetsUnknown now →
          r₂.session.emulator.fault = some (.machine (.unknownWord m.nextWord m.pc)) ∧
          r₂.session.fault =
            some s!"Unknown opcode ${Text.hex 4 m.nextWord.toNat} at ${Text.hexInt 3 m.pc}" := by
  constructor
  · intro r earlier later now hnew r₁ r₂ m c hmeets hlater
    have hcalm : r.Calm := fun _ cause hmem => absurd (hnew ▸ hmem) List.not_mem_nil
    have hgave := hmeets.endsWell (hcalm.exposedRun dice earlier) dice
    have hends := hgave.exposedRun dice later
    have hat : r₂.emulatorAt = .ended := hgave.ended_exposedRun dice (.inr hlater)
    obtain ⟨hrunning, hclosed⟩ := hends.ended hat
    exact ⟨hat, hends.expected, hrunning, hclosed, hends.fault⟩
  · intro rom machine hload cycleRate timerRate refreshRate earlier later now hwhole r₁ r₂ m hmeets
    have hm : machine.WellFormed := Machine.powerOn_wellFormed.load hload
    have hsound : Sound r₁ :=
      sound_run dice (sound_started hm cycleRate timerRate refreshRate) earlier hwhole
    have hopen : r₁.session.link.toScreen.closed = false :=
      hsound.toScreen_open (by rw [hmeets.1]; rfl)
    have hgave := (hmeets.endsWell (fun _ => hsound.calm) dice).toGaveUp
    rw [if_neg (by rw [hopen]; decide)] at hgave
    have hfault := (hgave.run dice later).fault
    refine ⟨hfault, ?_⟩
    rw [Session.fault, show r₂.session.emulator.fault = _ from hfault]
    rfl

end Run

-- A program that begins with no instruction.
def faulty : Race Int :=
  .started (Machine.powerOn.withRom #[0xFF, 0xFF]) ⟨1, 0⟩ ⟨1, 0⟩ ⟨1, 0⟩

theorem nextWord_faulty : faulty.session.emulator.machine.nextWord = 0xFFFF :=
  Machine.nextWord_withRom 0xFF 0xFF

theorem ofWord?_faulty : Instruction.ofWord? faulty.session.emulator.machine.nextWord = none := by
  rw [nextWord_faulty]
  rfl

-- The loop on open channels, and a session in which the other side begins, and hears of it, late.
theorem unknown_word_noted_open :
    let dice : Dice := fun _ => 0
    let r₁ := faulty.exposedRun dice [.emulator 0, .emulator 0, .emulator 0]
    let r₂ := r₁.exposedRun dice [.emulator 1, .news .receive, .emulator 1]
    let s₁ := faulty.run dice [.emulator 0, .emulator 0, .emulator 0]
    let s₂ := s₁.run dice
      [.emulator 1, .presenter none 0, .presenter (some .quit) 0, .presenter none 0]
    r₁.MeetsUnknown 1 ∧ s₁.MeetsUnknown 1 ∧
      r₂.session.emulator.fault = some (.machine (.unknownWord 0xFFFF 0x200)) ∧
      s₂.session.fault = some "Unknown opcode $FFFF at $200" := by
  intro dice r₁ r₂ s₁ s₂
  have hload : Machine.powerOn.load #[0xFF, 0xFF] = .ok (.withRom .powerOn #[0xFF, 0xFF]) :=
    Machine.load_of_fits (by decide)
  have hmachine : r₁.session.emulator.machine = faulty.session.emulator.machine := rfl
  have hmachine' : s₁.session.emulator.machine = faulty.session.emulator.machine := rfl
  have hr : r₁.MeetsUnknown 1 := ⟨rfl, rfl, hmachine ▸ ofWord?_faulty⟩
  have hs : s₁.MeetsUnknown 1 := ⟨rfl, rfl, hmachine' ▸ ofWord?_faulty⟩
  obtain ⟨hexposed, hsession⟩ := unknown_word_noted (α := Int) dice
  obtain ⟨-, -, -, -, hfault⟩ := hexposed faulty [.emulator 0, .emulator 0, .emulator 0]
    [.news .receive, .emulator 1] 1 rfl hr ⟨1, by simp⟩
  obtain ⟨-, hreport⟩ := hsession hload ⟨1, 0⟩ ⟨1, 0⟩ ⟨1, 0⟩ [.emulator 0, .emulator 0, .emulator 0]
    [.presenter none 0, .presenter (some .quit) 0, .presenter none 0] 1
    (by simp [Move.IsWhole]) hs
  have hopen : r₁.session.link.toScreen.closed = false := rfl
  have hpc : faulty.session.emulator.machine.pc = 0x200 := rfl
  change _ = some (if r₁.session.link.toScreen.closed then _ else
    Failure.machine (.unknownWord r₁.session.emulator.machine.nextWord
      r₁.session.emulator.machine.pc)) at hfault
  change _ = some (Fault.unknownWord s₁.session.emulator.machine.nextWord
    s₁.session.emulator.machine.pc).message at hreport
  rw [hopen, hmachine, nextWord_faulty, hpc] at hfault
  rw [hmachine', nextWord_faulty, hpc] at hreport
  exact ⟨hr, hs, hfault, hreport.trans (by decide +kernel)⟩

-- The same loop on a channel that the other end has closed.
theorem cut_off_hides_word :
    let dice : Dice := fun _ => 0
    let r₁ := faulty.exposedRun dice [.news .close, .emulator 0, .emulator 0, .emulator 0]
    let r₂ := r₁.exposedRun dice [.emulator 1, .emulator 1]
    let m := r₁.session.emulator.machine
    r₁.MeetsUnknown 1 ∧ m.nextWord = 0xFFFF ∧ m.pc = 0x200 ∧ r₂.emulatorAt = .ended ∧
      r₂.session.emulator.fault ≠ some (.machine (.unknownWord 0xFFFF 0x200)) ∧
      r₂.session.fault = some "emu->ui: send on closed channel" := by
  intro dice r₁ r₂ m
  have hmachine : m = faulty.session.emulator.machine := rfl
  have hmeets : r₁.MeetsUnknown 1 := ⟨rfl, rfl, hmachine ▸ ofWord?_faulty⟩
  have hcalm : r₁.Calm := fun _ cause hmem => absurd hmem List.not_mem_nil
  have hclosed : r₁.session.link.toScreen.closed = true := rfl
  have hname : r₁.session.link.toScreen.name = "emu->ui" := rfl
  have hgave := hmeets.endsWell hcalm dice
  rw [if_pos hclosed, hname] at hgave
  have hrun : r₂ = (r₁.emulatorMove dice 1).exposedRun dice [.emulator 1] :=
    Race.exposedRun_cons dice r₁ (.emulator 1) [.emulator 1]
  have hended : r₂.emulatorAt = .ended := by
    rw [hrun]
    exact hgave.ended_exposedRun dice (.inr ⟨1, List.mem_singleton_self _⟩)
  have hfault : r₂.session.emulator.fault = some (.channel (.sending "emu->ui")) := by
    rw [hrun]
    exact (hgave.exposedRun dice [.emulator 1]).fault
  refine ⟨hmeets, hmachine ▸ nextWord_faulty, rfl, hended, ?_, ?_⟩
  · rw [hfault]
    decide
  · rw [Session.fault, hfault]
    rfl

end Session

end SuperChip
