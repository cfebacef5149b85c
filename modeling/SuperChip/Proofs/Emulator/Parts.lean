import SuperChip.Proofs.Emulator.Step
import SuperChip.Proofs.Machine.Picture

-- What each part of an emulator's turn changes, whether the channel to the screen is open or not.
namespace SuperChip.Emulator

variable {α : Type}

-- The emulator once it has acted on a message. To quit changes nothing in it, nor does what is no
-- order.
def afterOrder (e : Emulator α) : Option Message → Emulator α
  | some (.control (.keys held)) => { e with machine.keys := held.take keyCount }
  | some (.control (.pause paused)) => { e with paused }
  | some (.control .reset) => { e with machine := e.machine.reset }
  | _ => e

namespace State

variable {s t u : State α} {p q : Event → Prop}

-- Nothing is taken from the orders that wait, and what is sent is news of one kind.
structure Sends (p : Event → Prop) (s t : State α) : Prop where
  toEmulator : t.link.toEmulator = s.link.toEmulator
  toScreen : ∃ news : List Event,
    t.link.toScreen = s.link.toScreen.added (news.map .event) ∧ ∀ event ∈ news, p event

theorem Sends.of_link (h : t.link = s.link) : Sends p s t := by
  refine ⟨by rw [h], [], ?_, by simp⟩
  rw [h]
  exact (Channel.added_nil _).symm

theorem Sends.of_reporting {event : Event} (hp : p event)
    (h : t.link = (s.reporting [event]).link) : Sends p s t := by
  refine ⟨by rw [h]; rfl, [event], by rw [h]; rfl, ?_⟩
  intro other hother
  rwa [List.mem_singleton.mp hother]

theorem Sends.mono (h : Sends p s t) (hpq : ∀ event, p event → q event) : Sends q s t := by
  obtain ⟨news, htoScreen, hkind⟩ := h.toScreen
  exact ⟨h.toEmulator, news, htoScreen, fun event hevent => hpq event (hkind event hevent)⟩

theorem Sends.forall_of_added (h : Sends p s t) {news : List Event}
    (hnews : t.link.toScreen = s.link.toScreen.added (news.map .event)) :
    ∀ event ∈ news, p event := by
  obtain ⟨sent, htoScreen, hkind⟩ := h.toScreen
  have hpending : s.link.toScreen.pending ++ sent.map Message.event =
      s.link.toScreen.pending ++ news.map Message.event :=
    congrArg Channel.pending (htoScreen.symm.trans hnews)
  intro event hevent
  have hmem : Message.event event ∈ sent.map Message.event := by
    rw [List.append_cancel_left hpending]
    exact List.mem_map_of_mem hevent
  obtain ⟨other, hother, heq⟩ := List.mem_map.mp hmem
  exact Message.event.inj heq ▸ hkind other hother

theorem filterMap_news {β : Type} {pick : Message → Option β} {news : List Event}
    (hpick : ∀ event ∈ news, pick (.event event) = none) :
    (news.map Message.event).filterMap pick = [] := by
  rw [List.filterMap_map]
  exact List.filterMap_eq_nil_iff.mpr hpick

theorem send_cases (s : State α) (event : Event) :
    s.send event = .goOn (s.reporting [event]) ∨
      ∃ closed, s.send event = .fail s (.channel closed) := by
  cases hc : s.link.toScreen.closed with
  | false => exact .inl (send_of_open hc event)
  | true => exact .inr ⟨.sending s.link.toScreen.name, send_of_closed hc event⟩

-- Sending changes nothing but the channel.
theorem send_emulator (s : State α) (event : Event) :
    (s.send event).state.emulator = s.emulator := by
  rcases send_cases s event with h | ⟨closed, h⟩ <;> rw [h] <;> rfl

theorem send_sends (s : State α) (event : Event) (hp : p event) :
    Sends p s (s.send event).state := by
  rcases send_cases s event with h | ⟨closed, h⟩
  · rw [h]
    exact .of_reporting hp rfl
  · rw [h]
    exact .of_link rfl

theorem answer_emulator (s : State α) (message : Option Message) :
    (s.answer message).state.emulator = s.emulator.afterOrder message := by
  rcases message with _ | ⟨order | event | text⟩
  · rfl
  · cases order with
    | keys held => rfl
    | pause paused =>
      simp only [answer, obey]
      split <;> rfl
    | reset => rfl
    | quit =>
      simp only [answer, obey]
      rcases send_cases s .quitAck with h | ⟨closed, h⟩ <;> rw [h] <;> rfl
  · rfl
  · rfl

-- Only to quit ends the loop.
theorem answer_goesOn (s : State α) {message : Option Message}
    (h : message ≠ some (.control .quit)) : ∃ t, s.answer message = .goOn t := by
  rcases message with _ | ⟨order | event | text⟩
  · exact ⟨s, rfl⟩
  · cases order with
    | quit => exact absurd rfl h
    | _ => exact ⟨_, rfl⟩
  · exact ⟨_, rfl⟩
  · exact ⟨_, rfl⟩

theorem answer_sends (s : State α) (message : Option Message) :
    Sends (· = .quitAck) s (s.answer message).state := by
  rcases message with _ | ⟨order | event | text⟩
  · exact .of_link rfl
  · cases order with
    | keys held => exact .of_link rfl
    | pause paused =>
      simp only [answer, obey]
      split <;> exact .of_link rfl
    | reset => exact .of_link rfl
    | quit =>
      simp only [answer, obey]
      rcases send_cases s .quitAck with h | ⟨closed, h⟩
      · rw [h]
        exact .of_reporting rfl rfl
      · rw [h]
        exact .of_link rfl
  · exact .of_link rfl
  · exact .of_link rfl

def IsFault (event : Event) : Prop := ∃ reason, event = .fault reason

-- News of an instruction, and news of the timers.
def IsOutcome (event : Event) : Prop :=
  (∃ mode frame, event = .draw mode frame) ∨ IsFault event

def IsBeep (event : Event) : Prop := ∃ on, event = .beep on

theorem publish_eq (s : State α) :
    s.publish =
      if s.emulator.machine.redraw then
        (s.send (.draw s.emulator.machine.mode s.emulator.machine.snapshot)).andThen fun u =>
          .goOn (u.withMachine { s.emulator.machine with redraw := false })
      else .goOn s := rfl

theorem publish_emulator (s : State α) :
    ∃ redraw, s.publish.state.emulator =
      { s.emulator with machine := { s.emulator.machine with redraw } } := by
  rw [publish_eq]
  split
  · refine Turn.state_andThen (p := fun u : State α => ∃ redraw, u.emulator =
      { s.emulator with machine := { s.emulator.machine with redraw } }) ?_ ?_
    · exact ⟨s.emulator.machine.redraw, send_emulator s _⟩
    · rintro u ⟨redraw, hu⟩
      refine ⟨false, ?_⟩
      simp only [Turn.state, withMachine, hu]
  · exact ⟨s.emulator.machine.redraw, rfl⟩

theorem publish_sends (s : State α) : Sends IsOutcome s s.publish.state := by
  rw [publish_eq]
  split
  · have hsend := send_sends (p := IsOutcome) s
      (.draw s.emulator.machine.mode s.emulator.machine.snapshot) (.inl ⟨_, _, rfl⟩)
    refine Turn.state_andThen (p := Sends IsOutcome s) hsend ?_
    intro u hu
    exact ⟨hu.toEmulator, hu.toScreen⟩
  · exact .of_link rfl

theorem giveUp_emulator (s : State α) (word : UInt16) (address : Int) :
    (s.giveUp word address).state.emulator =
      { s.emulator with fault := some (.machine (.unknownWord word address)) } := by
  unfold giveUp
  refine Turn.state_andThen (p := fun u : State α => u.emulator =
    { s.emulator with fault := some (.machine (.unknownWord word address)) }) ?_ ?_
  · exact send_emulator _ _
  · exact fun u hu => hu

theorem giveUp_sends (s : State α) (word : UInt16) (address : Int) :
    Sends IsFault s (s.giveUp word address).state := by
  unfold giveUp
  refine Turn.state_andThen (p := Sends IsFault s) ?_ fun u hu => hu
  have hsend := send_sends (p := IsFault)
    ({ s with emulator.fault := some (.machine (.unknownWord word address)) }.say .error
      s!"Fatal decode fault: {(Fault.unknownWord word address).message}")
    (.fault (Fault.unknownWord word address).message) ⟨_, rfl⟩
  exact ⟨hsend.toEmulator, hsend.toScreen⟩

-- An instruction changes the machine, whose picture may then count as published, and may turn out
-- to be no instruction at all.
theorem cycle_emulator (dice : Dice) (s : State α) :
    ∃ redraw fault, (s.cycle dice).state.emulator =
      { s.emulator with machine := { (s.emulator.machine.cycle dice).1 with redraw }, fault } := by
  unfold State.cycle
  generalize s.emulator.machine.cycle dice = outcome
  obtain ⟨m, fault⟩ := outcome
  rcases fault with _ | fault
  · obtain ⟨redraw, h⟩ :=
      publish_emulator ((s.note s.emulator.machine.cycleNotes).withMachine m)
    exact ⟨redraw, s.emulator.fault, h⟩
  · cases fault with
    | unknownWord word address => exact ⟨m.redraw, _, giveUp_emulator _ word address⟩
    | _ => exact ⟨m.redraw, s.emulator.fault, rfl⟩

theorem cycle_sends (dice : Dice) (s : State α) : Sends IsOutcome s (s.cycle dice).state := by
  unfold State.cycle
  generalize s.emulator.machine.cycle dice = outcome
  obtain ⟨m, fault⟩ := outcome
  rcases fault with _ | fault
  · have h := publish_sends ((s.note s.emulator.machine.cycleNotes).withMachine m)
    exact ⟨h.toEmulator, h.toScreen⟩
  · cases fault with
    | unknownWord word address =>
      have h := giveUp_sends ((s.note s.emulator.machine.cycleNotes).withMachine m) word address
      exact .mono ⟨h.toEmulator, h.toScreen⟩ fun event hfault => .inr hfault
    | _ => exact .of_link rfl

-- The beep that is announced is the machine's.
theorem announce_eq (s : State α) :
    s.announce =
      if s.emulator.beeping = s.emulator.machine.beeping then .goOn s
      else { s with emulator.beeping := s.emulator.machine.beeping }.send
        (.beep s.emulator.machine.beeping) := by
  unfold announce
  split
  · rfl
  · next hne =>
    have hflip : (!s.emulator.beeping) = s.emulator.machine.beeping := by
      cases hold : s.emulator.beeping <;> cases hnew : s.emulator.machine.beeping <;> simp_all
    rw [hflip]

theorem tick_emulator (s : State α) :
    s.tick.state.emulator =
      { s.emulator with
        machine := s.emulator.machine.tick
        beeping := s.emulator.machine.tick.beeping } := by
  unfold State.tick
  rw [announce_eq]
  split
  · next hb =>
    change s.emulator.beeping = s.emulator.machine.tick.beeping at hb
    rw [← hb]
    rfl
  · rw [send_emulator]
    rfl

theorem tick_sends (s : State α) : Sends IsBeep s s.tick.state := by
  unfold State.tick
  rw [announce_eq]
  split
  · exact .of_link rfl
  · have hsend := send_sends (p := IsBeep)
      { s.withMachine s.emulator.machine.tick with
        emulator.beeping := s.emulator.machine.tick.beeping }
      (.beep s.emulator.machine.tick.beeping) ⟨_, rfl⟩
    exact ⟨hsend.toEmulator, hsend.toScreen⟩

variable [Sub α] [LT α] [DecidableLT α]

theorem whenCycleDue_sends (dice : Dice) (s : State α) (now : α) :
    Sends IsOutcome s (s.whenCycleDue now (cycle dice)).state := by
  rw [whenCycleDue_eq]
  split
  · have hcycle := cycle_sends dice (s.cyclePolled now)
    exact ⟨hcycle.toEmulator, hcycle.toScreen⟩
  · exact .of_link rfl

theorem whenTimerDue_sends (s : State α) (now : α) :
    Sends IsBeep s (s.whenTimerDue now tick).state := by
  rw [whenTimerDue_eq]
  split
  · have htick := tick_sends (s.timerPolled now)
    exact ⟨htick.toEmulator, htick.toScreen⟩
  · exact .of_link rfl

-- An instruction leaves the pause and the announced beep as they are, and all but one leave the keys.
theorem whenCycleDue_keeps (dice : Dice) (s : State α) (now : α) :
    (s.whenCycleDue now (cycle dice)).state.emulator.paused = s.emulator.paused ∧
      (s.whenCycleDue now (cycle dice)).state.emulator.beeping = s.emulator.beeping := by
  rw [whenCycleDue_eq]
  split
  · obtain ⟨redraw, fault, hemulator⟩ := cycle_emulator dice (s.cyclePolled now)
    rw [hemulator]
    exact ⟨rfl, rfl⟩
  · exact ⟨rfl, rfl⟩

theorem whenCycleDue_keys (dice : Dice) {s : State α} {now : α}
    (hexit : s.cycleRuns now = true → s.emulator.machine.nextWord ≠ 0x00FD) :
    (s.whenCycleDue now (cycle dice)).state.emulator.machine.keys = s.emulator.machine.keys := by
  rw [whenCycleDue_eq]
  split
  · next hruns =>
    obtain ⟨redraw, fault, hemulator⟩ := cycle_emulator dice (s.cyclePolled now)
    rw [hemulator]
    refine Machine.keys_cycle dice s.emulator.machine ?_
    intro hi
    exact hexit hruns (Instruction.word_of_exit hi)
  · rfl

-- The timers leave the pause and the keys as they are.
theorem whenTimerDue_keeps (s : State α) (now : α) :
    (s.whenTimerDue now tick).state.emulator.paused = s.emulator.paused ∧
      (s.whenTimerDue now tick).state.emulator.machine.keys = s.emulator.machine.keys := by
  rw [whenTimerDue_eq]
  split
  · rw [tick_emulator]
    exact ⟨rfl, rfl⟩
  · exact ⟨rfl, rfl⟩

end State

end SuperChip.Emulator
