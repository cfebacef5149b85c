import SuperChip.Emulator
import SuperChip.Proofs.Channel
import SuperChip.Proofs.Machine.Bounds

-- A turn of the emulator in parts, each of which uses a channel at most once, and what every part
-- comes to while the channel to the screen is open.
namespace SuperChip

-- Orders whose keypad has all its keys. Anything else is as it should be.
def Message.IsWhole (message : Message) : Prop :=
  ∀ held, message = .control (.keys held) → 16 ≤ held.length

-- The news after which there is no more.
def Event.IsEnd : Event → Prop
  | .quitAck => True
  | .fault _ => True
  | _ => False

def Message.IsEnd : Message → Prop
  | .event news => news.IsEnd
  | _ => False

namespace Emulator.State

variable {α : Type} {s t : State α}

def reporting (s : State α) (news : List Event) : State α :=
  { s with link.toScreen := s.link.toScreen.added (news.map .event) }

theorem send_of_open (h : s.link.toScreen.closed = false) (event : Event) :
    s.send event = .goOn (s.reporting [event]) := by
  simp only [send, Channel.send_of_open h, reporting, List.map_cons, List.map_nil]

theorem send_of_closed (h : s.link.toScreen.closed = true) (event : Event) :
    s.send event = .fail s (.channel (.sending s.link.toScreen.name)) := by
  simp only [send, Channel.send, h, if_true]

theorem reporting_nil (s : State α) : s.reporting [] = s := by
  simp only [reporting, List.map_nil, Channel.added_nil]

def answer (message : Option Message) (s : State α) : Result α :=
  match message with
  | none => .goOn s
  | some (.control order) => s.obey order
  | some other =>
    .goOn (s.say .warning s!"Ignoring unexpected control message {other.describe}")

theorem receive_eq (s : State α) :
    s.receive =
      match s.link.toEmulator.receive with
      | .error closed => .fail s (.channel closed)
      | .ok (message, toEmulator) =>
        answer message { s with link := { s.link with toEmulator } } := by
  unfold receive answer
  rcases s.link.toEmulator.receive with closed | ⟨message, toEmulator⟩
  · rfl
  · rcases message with _ | ⟨order | event | text⟩ <;> rfl

-- What a part of a turn leaves of an emulator, apart from how its loop ends.
structure Kept (s : State α) (news : List Event) (t : State α) : Prop where
  machine : t.emulator.machine.WellFormed
  running : t.emulator.running = s.emulator.running
  toScreen : t.link.toScreen = s.link.toScreen.added (news.map .event)
  toEmulator : t.link.toEmulator.closed = s.link.toEmulator.closed
  orders : t.link.toEmulator.pending ⊆ s.link.toEmulator.pending

theorem Kept.of_link {news : List Event} (hm : t.emulator.machine.WellFormed)
    (hrunning : t.emulator.running = s.emulator.running)
    (hlink : t.link = (s.reporting news).link) : Kept s news t := by
  refine ⟨hm, hrunning, ?_, ?_, ?_⟩
  · rw [hlink]
    rfl
  · rw [hlink]
    rfl
  · rw [hlink]
    exact List.Subset.refl _

theorem Kept.refl (h : s.emulator.machine.WellFormed) : Kept s [] s :=
  .of_link h rfl (by rw [reporting_nil])

-- How a part may end while the channel is open: the turn goes on with news of no end, or it stops
-- with the news of the end as the last.
inductive Proceeds (s : State α) : Option Fault → Result α → Prop where
  | goOn {t : State α} {news : List Event} (kept : Kept s news t)
      (fault : t.emulator.fault = s.emulator.fault) (plain : ∀ event ∈ news, ¬ event.IsEnd) :
      Proceeds s none (.goOn t)
  | quit {t : State α} (kept : Kept s [.quitAck] t)
      (fault : t.emulator.fault = s.emulator.fault) : Proceeds s none (.stop t)
  | fault {t : State α} {word : UInt16} {address : Int}
      (kept : Kept s [.fault (Fault.unknownWord word address).message] t)
      (fault : t.emulator.fault = some (.machine (.unknownWord word address))) :
      Proceeds s (some (.unknownWord word address)) (.stop t)

-- The limits are no matter to how a part ends.
theorem Proceeds.of_same {fault : Option Fault} {result : Result α} (h : Proceeds t fault result)
    (hlink : t.link = s.link) (hrunning : t.emulator.running = s.emulator.running)
    (hfault : t.emulator.fault = s.emulator.fault) : Proceeds s fault result := by
  have hkept : ∀ {news : List Event} {u : State α}, Kept t news u → Kept s news u := by
    intro news u kept
    exact ⟨kept.machine, kept.running.trans hrunning, hlink ▸ kept.toScreen,
      hlink ▸ kept.toEmulator, hlink ▸ kept.orders⟩
  cases h with
  | goOn kept same plain => exact .goOn (hkept kept) (same.trans hfault) plain
  | quit kept same => exact .quit (hkept kept) (same.trans hfault)
  | fault kept noted => exact .fault (hkept kept) noted

theorem answer_proceeds (hm : s.emulator.machine.WellFormed)
    (hopen : s.link.toScreen.closed = false) {message : Option Message}
    (hwhole : ∀ order ∈ message, order.IsWhole) : Proceeds s none (s.answer message) := by
  have hlink : s.link = (s.reporting []).link := by rw [reporting_nil]
  have hplain : ∀ event ∈ ([] : List Event), ¬ event.IsEnd := by simp
  rcases message with _ | ⟨order | event | text⟩
  · exact .goOn (.refl hm) rfl hplain
  · cases order with
    | keys held =>
      have hlength : (held.take keyCount).length = 16 := by
        have := hwhole _ rfl held rfl
        simp only [List.length_take, keyCount]
        omega
      exact .goOn (.of_link { hm with keys_length := hlength } rfl hlink) rfl hplain
    | pause paused =>
      by_cases hp : paused = s.emulator.paused
      · simp only [answer, obey, hp, if_true]
        exact .goOn (.of_link hm rfl hlink) rfl hplain
      · simp only [answer, obey, hp, if_false]
        exact .goOn (.of_link hm rfl hlink) rfl hplain
    | reset =>
      simp only [answer, obey]
      exact .goOn (.of_link hm.inBounds.reset rfl hlink) rfl hplain
    | quit =>
      simp only [answer, obey, send_of_open hopen, Turn.andThen_goOn]
      exact .quit (.of_link hm rfl rfl) rfl
  · exact .goOn (.of_link hm rfl hlink) rfl hplain
  · exact .goOn (.of_link hm rfl hlink) rfl hplain

theorem publish_proceeds (hm : s.emulator.machine.WellFormed)
    (hopen : s.link.toScreen.closed = false) : Proceeds s none s.publish := by
  by_cases hr : s.emulator.machine.redraw
  · simp only [publish, hr, if_true, send_of_open hopen, Turn.andThen_goOn]
    exact .goOn (.of_link { hm with } rfl rfl) rfl (by simp [Event.IsEnd])
  · simp only [publish, hr, if_false, Bool.false_eq_true]
    exact .goOn (.refl hm) rfl (by simp)

-- A well-formed machine knows no fault but the unknown word.
theorem cycle_proceeds (dice : Dice) (hm : s.emulator.machine.WellFormed)
    (hopen : s.link.toScreen.closed = false) :
    Proceeds s (s.emulator.machine.cycle dice).2 (s.cycle dice) := by
  have hafter : (s.emulator.machine.cycle dice).1.WellFormed := by
    simp only [Machine.cycle]
    exact Machine.execute_wellFormed dice hm _
  have hfault : ∀ fault, (s.emulator.machine.cycle dice).2 = some fault →
      fault = .unknownWord s.emulator.machine.nextWord s.emulator.machine.pc :=
    fun fault hf => (Machine.fault_execute dice hm hf).2
  unfold State.cycle
  generalize s.emulator.machine.cycle dice = outcome at hafter hfault ⊢
  obtain ⟨m, fault⟩ := outcome
  rcases fault with _ | fault
  · have hpublish := publish_proceeds
      (s := (s.note s.emulator.machine.cycleNotes).withMachine m) hafter hopen
    exact hpublish.of_same rfl rfl rfl
  · obtain rfl := hfault fault rfl
    simp only [giveUp]
    rw [send_of_open (by exact hopen), Turn.andThen_goOn]
    exact .fault (.of_link hafter rfl rfl) rfl

theorem tick_proceeds (hm : s.emulator.machine.WellFormed)
    (hopen : s.link.toScreen.closed = false) : Proceeds s none s.tick := by
  have hafter := Machine.tick_wellFormed hm
  unfold State.tick
  generalize s.emulator.machine.tick = m at hafter ⊢
  by_cases hb : s.emulator.beeping = m.beeping
  · have hannounce : (s.withMachine m).announce = .goOn (s.withMachine m) := if_pos hb
    rw [hannounce]
    have hidle : Proceeds (s.withMachine m) none (.goOn (s.withMachine m)) :=
      .goOn (.refl hafter) rfl (by simp)
    exact hidle.of_same rfl rfl rfl
  · have hannounce : (s.withMachine m).announce =
        { s.withMachine m with emulator.beeping := !s.emulator.beeping }.send
          (.beep !s.emulator.beeping) := if_neg hb
    rw [hannounce, send_of_open (by exact hopen)]
    exact .goOn (.of_link hafter rfl rfl) rfl (by simp [Event.IsEnd])

variable [Sub α] [LT α] [DecidableLT α]

-- Whether an instruction, or the timers, are due and not held up by a pause.
def cycleRuns (s : State α) (now : α) : Bool :=
  (s.emulator.cycleRate.poll now).2 && !s.emulator.paused

def timerRuns (s : State α) (now : α) : Bool :=
  (s.emulator.timerRate.poll now).2 && !s.emulator.paused

def cyclePolled (s : State α) (now : α) : State α :=
  { s with emulator.cycleRate := (s.emulator.cycleRate.poll now).1 }

def timerPolled (s : State α) (now : α) : State α :=
  { s with emulator.timerRate := (s.emulator.timerRate.poll now).1 }

theorem whenCycleDue_eq (s : State α) (now : α) (action : State α → Result α) :
    s.whenCycleDue now action =
      if s.cycleRuns now then action (s.cyclePolled now) else .goOn (s.cyclePolled now) := rfl

theorem whenTimerDue_eq (s : State α) (now : α) (action : State α → Result α) :
    s.whenTimerDue now action =
      if s.timerRuns now then action (s.timerPolled now) else .goOn (s.timerPolled now) := rfl

theorem whenCycleDue_proceeds (dice : Dice) (hm : s.emulator.machine.WellFormed)
    (hopen : s.link.toScreen.closed = false) (now : α) :
    Proceeds s (if s.cycleRuns now then (s.emulator.machine.cycle dice).2 else none)
      (s.whenCycleDue now (cycle dice)) := by
  rw [whenCycleDue_eq]
  have hcycle := cycle_proceeds (s := s.cyclePolled now) dice hm hopen
  have hidle : Proceeds (s.cyclePolled now) none (.goOn (s.cyclePolled now)) :=
    .goOn (.refl hm) rfl (by simp)
  split
  · exact hcycle.of_same rfl rfl rfl
  · exact hidle.of_same rfl rfl rfl

theorem whenTimerDue_proceeds (hm : s.emulator.machine.WellFormed)
    (hopen : s.link.toScreen.closed = false) (now : α) :
    Proceeds s none (s.whenTimerDue now tick) := by
  rw [whenTimerDue_eq]
  have htick := tick_proceeds (s := s.timerPolled now) hm hopen
  have hidle : Proceeds (s.timerPolled now) none (.goOn (s.timerPolled now)) :=
    .goOn (.refl hm) rfl (by simp)
  split
  · exact htick.of_same rfl rfl rfl
  · exact hidle.of_same rfl rfl rfl

end Emulator.State

end SuperChip
