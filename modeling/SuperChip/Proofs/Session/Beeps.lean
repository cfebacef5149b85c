import SuperChip.Proofs.Session.Overlap
import Mathlib.Data.List.Chain

-- The beep as it is announced, on its way and heard.
namespace SuperChip

namespace Presenter.State

variable {α : Type}

-- What the speaker was told, and what it is about to be told.
def sounds (s : State α) : List Bool :=
  s.outputs.filterMap Output.sound? ++ s.link.toScreen.pending.filterMap Message.beep?

variable [Sub α] [LT α] [DecidableLT α]

theorem sounds_refresh (s : State α) (now : α) (mode : Mode) (frame : Frame) :
    (s.refresh now mode frame).sounds = s.sounds := by
  rw [sounds, refresh_link]
  exact congrArg (· ++ _) (refresh_sounds s now mode frame)

-- Receiving news of the beep passes it on to the speaker, and other news are no matter to it.
theorem sounds_receive {s : State α} (hopen : s.link.toScreen.closed = false) (now : α) :
    (receive now s).state.sounds = s.sounds := by
  rcases hp : s.link.toScreen.pending with _ | ⟨message, rest⟩
  · rw [receive_of_nil hp hopen]
    rfl
  · have htaken : message.beep? = none → s.taken.sounds = s.sounds := by
      intro hnone
      simp only [sounds, taken, hp, List.tail_cons, List.filterMap_cons, hnone]
    by_cases hevent : ∃ event, message = .event event
    · obtain ⟨event, rfl⟩ := hevent
      rw [receive_of_event hp]
      cases event with
      | draw mode frame => exact (sounds_refresh s.taken now mode frame).trans (htaken rfl)
      | beep on =>
        simp only [follow, Turn.state, give, sounds, taken, hp, List.tail_cons,
          List.filterMap_append, List.filterMap_cons, Output.sound?, Message.beep?,
          List.filterMap_nil, List.append_assoc, List.singleton_append]
      | quitAck => exact htaken rfl
      | fault reason => exact htaken rfl
    · have hother : ∀ event, message ≠ .event event := fun event he => hevent ⟨event, he⟩
      rw [receive_of_other hp hother]
      refine htaken ?_
      cases message with
      | event event => exact absurd rfl (hother event)
      | _ => rfl

end Presenter.State

theorem Emulator.afterOrder_beeping {α : Type} (e : Emulator α) (message : Option Message) :
    (e.afterOrder message).beeping = e.beeping := by
  unfold afterOrder
  split <;> rfl

namespace Emulator.State

variable {α : Type} {s t : State α} {p : Event → Prop}

theorem beeps_of_sends (hsends : Sends p s t) (hp : ∀ on, ¬ p (.beep on)) :
    t.link.toScreen.pending.filterMap Message.beep? =
      s.link.toScreen.pending.filterMap Message.beep? := by
  obtain ⟨news, htoScreen, hkind⟩ := hsends.toScreen
  have hnone : (news.map Message.event).filterMap Message.beep? = [] := by
    refine filterMap_news ?_
    intro event hevent
    cases event with
    | beep on => exact absurd (hkind _ hevent) (hp on)
    | _ => rfl
  rw [htoScreen, Channel.pending_added, List.filterMap_append, hnone, List.append_nil]

-- A tick announces the beep that it leads to if it is a new one.
theorem tick_beeps (hopen : s.link.toScreen.closed = false) :
    let t := s.tick.state
    (t.link.toScreen = s.link.toScreen ∧ t.emulator.beeping = s.emulator.beeping) ∨
      t.link.toScreen = s.link.toScreen.added [.event (.beep t.emulator.beeping)] ∧
        s.emulator.beeping ≠ t.emulator.beeping := by
  intro t
  have hafter : t.emulator.beeping = s.emulator.machine.tick.beeping :=
    congrArg Emulator.beeping (tick_emulator s)
  have htick : t = (s.withMachine s.emulator.machine.tick).announce.state := rfl
  rw [announce_eq] at htick
  by_cases hsame : s.emulator.beeping = s.emulator.machine.tick.beeping
  · left
    rw [if_pos (by exact hsame)] at htick
    refine ⟨?_, hafter.trans hsame.symm⟩
    rw [htick]
    rfl
  · right
    rw [if_neg (by exact hsame), send_of_open (by exact hopen)] at htick
    refine ⟨?_, fun heq => hsame (heq.trans hafter)⟩
    rw [hafter, htick]
    rfl

end Emulator.State

namespace Session.Overlap

variable {α : Type} {w : Overlap α}

-- The beeps heard so far, and those on their way.
def sounds (w : Overlap α) : List Bool := w.session.presenterState.sounds

-- From silence on, each beep differs from the one before, and the last is the one that the emulation
-- side knows of.
structure Alternates (w : Overlap α) : Prop where
  chain : (false :: w.sounds).IsChain (· ≠ ·)
  last : (false :: w.sounds).getLast? = some w.session.emulator.beeping

theorem Alternates.of_same {w' : Overlap α} (h : Alternates w) (hsounds : w'.sounds = w.sounds)
    (hbeeping : w'.session.emulator.beeping = w.session.emulator.beeping) : Alternates w' := by
  refine ⟨?_, ?_⟩
  · rw [hsounds]
    exact h.chain
  · rw [hsounds, hbeeping]
    exact h.last

theorem Alternates.of_changed {w' : Overlap α} (h : Alternates w)
    (hsounds : w'.sounds = w.sounds ++ [w'.session.emulator.beeping])
    (hbeeping : w.session.emulator.beeping ≠ w'.session.emulator.beeping) : Alternates w' := by
  refine ⟨?_, ?_⟩
  · rw [hsounds, ← List.cons_append]
    refine h.chain.append (.singleton _) ?_
    intro before hbefore after hafter
    rw [h.last] at hbefore
    cases hbefore
    cases hafter
    exact hbeeping
  · rw [hsounds, ← List.cons_append, List.getLast?_concat]

variable [Sub α] [LT α] [DecidableLT α]

-- When the timers are due they set the beep, and otherwise they leave it as it is.
theorem beeping_ticking (hat : w.emulatorAt = .ticking) (dice : Dice) (now : α) :
    (w.emulatorMove dice now).session.emulator.beeping =
      if w.session.emulatorState.timerRuns now
      then (w.emulatorMove dice now).session.emulator.machine.beeping
      else w.session.emulator.beeping := by
  rw [emulatorMove_ticking hat, Emulator.State.whenTimerDue_eq]
  split
  · have htick := Emulator.State.tick_emulator (w.session.emulatorState.timerPolled now)
    have hbeeping := congrArg Emulator.beeping htick
    have hmachine := congrArg (fun e => e.machine.beeping) htick
    exact hbeeping.trans hmachine.symm
  · rfl

theorem Alternates.ticking (h : Alternates w) (hopen : Open w) (hat : w.emulatorAt = .ticking)
    (dice : Dice) (now : α) : Alternates (w.emulatorMove dice now) := by
  rw [emulatorMove_ticking hat, Emulator.State.whenTimerDue_eq]
  split
  · have hbeeps := Emulator.State.tick_beeps (s := w.session.emulatorState.timerPolled now)
      hopen.toScreen
    generalize (w.session.emulatorState.timerPolled now).tick = result at hbeeps ⊢
    obtain ⟨hscreen, hbeeping⟩ | ⟨hscreen, hbeeping⟩ := hbeeps
    · refine h.of_same ?_ hbeeping
      exact congrArg (fun c => _ ++ c.pending.filterMap Message.beep?) hscreen
    · refine h.of_changed ?_ hbeeping
      refine (congrArg (fun c => _ ++ c.pending.filterMap Message.beep?) hscreen).trans ?_
      rw [Channel.pending_added, List.filterMap_append, ← List.append_assoc]
      rfl
  · exact h.of_same rfl rfl

theorem Alternates.emulatorMove (h : Alternates w) (hopen : Open w) (dice : Dice) (now : α) :
    Alternates (w.emulatorMove dice now) := by
  cases hat : w.emulatorAt with
  | between =>
    simp only [Overlap.emulatorMove, hat]
    split
    · exact h.of_same rfl rfl
    · exact h.of_same rfl rfl
  | answering message =>
    have hbeeps := Emulator.State.beeps_of_sends
      (Emulator.State.answer_sends w.session.emulatorState message) (by simp)
    have hemulator := Emulator.State.answer_emulator w.session.emulatorState message
    have hbeeping := congrArg Emulator.beeping hemulator
    rw [emulatorMove_answering hat]
    refine h.of_same (congrArg (_ ++ ·) hbeeps) (hbeeping.trans ?_)
    exact Emulator.afterOrder_beeping w.session.emulator message
  | cycling =>
    have hbeeps := Emulator.State.beeps_of_sends
      (Emulator.State.whenCycleDue_sends dice w.session.emulatorState now)
      (by simp [Emulator.State.IsOutcome, Emulator.State.IsFault])
    have hkeeps := Emulator.State.whenCycleDue_keeps dice w.session.emulatorState now
    rw [emulatorMove_cycling hat]
    exact h.of_same (congrArg (_ ++ ·) hbeeps) hkeeps.2
  | ticking => exact h.ticking hopen hat dice now

theorem Alternates.presenterMove (h : Alternates w) (hopen : Open w) (input : Option InputEvent)
    (now : α) : Alternates (w.presenterMove input now) := by
  have hsame := sameEmulator_presenterMove input now w
  have hbeeping := congrArg Emulator.beeping hsame.emulator
  by_cases hat : w.presenterAt = .receiving
  · refine h.of_same ?_ hbeeping
    have hsounds := Presenter.State.sounds_receive (s := w.session.presenterState) hopen.toScreen now
    rw [presenterMove_of_open hopen, hat]
    exact hsounds
  · obtain ⟨htoScreen, houtputs⟩ := toScreen_presenterMove hopen hat input now
    refine h.of_same ?_ hbeeping
    simp only [sounds, Presenter.State.sounds, presenterState, htoScreen, houtputs]

-- What happens to the two sides: either of them moves, or the emulation side is told something from
-- outside.
inductive Occurrence (α : Type) where
  | moved (move : Move α)
  | told (message : Message)

def after (dice : Dice) (w : Overlap α) : Occurrence α → Overlap α
  | .moved move => w.move dice move
  | .told message =>
    { w with session.link.toEmulator := w.session.link.toEmulator.added [message] }

theorem after_alternates (dice : Dice) (hopen : Open w) (h : Alternates w)
    (occurrence : Occurrence α) :
    Open (w.after dice occurrence) ∧ Alternates (w.after dice occurrence) := by
  cases occurrence with
  | moved move =>
    cases move with
    | emulator now => exact ⟨open_emulatorMove dice now hopen, h.emulatorMove hopen dice now⟩
    | presenter input now =>
      exact ⟨open_presenterMove input now hopen, h.presenterMove hopen input now⟩
  | told message => exact ⟨⟨hopen.toEmulator, hopen.toScreen⟩, h.of_same rfl rfl⟩

theorem foldl_after_alternates (dice : Dice) (hopen : Open w) (h : Alternates w)
    (occurrences : List (Occurrence α)) : Alternates (occurrences.foldl (after dice) w) := by
  induction occurrences generalizing w with
  | nil => exact h
  | cons occurrence rest ih =>
    obtain ⟨hopenAfter, hafter⟩ := after_alternates dice hopen h occurrence
    exact ih hopenAfter hafter

-- However the steps of the two sides overlap, and whatever else the emulation side is told: the beeps
-- heard and on their way go on and off in turn, on first, the last of them is the one that was
-- announced last, and whenever the timers have run that is whether the sound timer runs.
theorem beeps_coherent (dice : Dice) (machine : Machine)
    (cycleRate timerRate refreshRate : RateLimiter α) (occurrences : List (Occurrence α)) :
    let w := occurrences.foldl (after dice) (started machine cycleRate timerRate refreshRate)
    w.sounds.IsChain (· ≠ ·) ∧ (∀ first ∈ w.sounds.head?, first = true) ∧
      w.sounds.getLast?.getD false = w.session.emulator.beeping ∧
      ∀ now, w.emulatorAt = .ticking → w.session.emulatorState.timerRuns now = true →
        let e := (w.emulatorMove dice now).session.emulator
        e.beeping = decide (0 < e.machine.sound) := by
  intro w
  have h : Alternates w := foldl_after_alternates dice ⟨rfl, rfl⟩ ⟨.singleton _, rfl⟩ occurrences
  obtain ⟨hfirst, hchain⟩ := List.isChain_cons.mp h.chain
  refine ⟨hchain, ?_, ?_, ?_⟩
  · intro first hmem
    have hne := hfirst first hmem
    simpa using hne.symm
  · have hlast := h.last
    rw [List.getLast?_cons] at hlast
    exact Option.some.inj hlast
  · intro now hat hruns
    have hbeeping := beeping_ticking hat dice now
    rw [if_pos hruns] at hbeeping
    exact hbeeping

-- A program that starts the sound timer, up to where the timers are due for the second time.
def soundingRom : Array UInt8 := #[0x60, 0x3C, 0xF0, 0x18]

def sounding : List (Occurrence Int) :=
  .replicate 4 (.moved (.emulator 1)) ++ .replicate 3 (.moved (.emulator 2))

theorem beeps_coherent_sounding :
    let dice : Dice := fun _ => 0
    let w := sounding.foldl (after dice)
      (started (Machine.powerOn.withRom soundingRom) ⟨1, 0⟩ ⟨1, 0⟩ ⟨1, 0⟩)
    let e := (w.emulatorMove dice 2).session.emulator
    w.emulatorAt = .ticking ∧ w.session.emulatorState.timerRuns 2 = true ∧
      0 < e.machine.sound ∧ e.beeping = true := by
  intro dice w e
  obtain ⟨hat, hruns, hsound⟩ : w.emulatorAt = .ticking ∧
      w.session.emulatorState.timerRuns 2 = true ∧ 0 < e.machine.sound := by
    decide +kernel
  obtain ⟨-, -, -, hbeeping⟩ := beeps_coherent dice (Machine.powerOn.withRom soundingRom)
    ⟨1, 0⟩ ⟨1, 0⟩ ⟨1, 0⟩ sounding
  refine ⟨hat, hruns, hsound, ?_⟩
  exact (hbeeping 2 hat hruns).trans (decide_eq_true hsound)

end Session.Overlap

end SuperChip
