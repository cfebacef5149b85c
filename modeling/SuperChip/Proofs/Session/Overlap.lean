import SuperChip.Proofs.Emulator.Parts
import SuperChip.Proofs.Presenter.Step
import SuperChip.Proofs.Session.History
import SuperChip.Proofs.Session.Side

-- The single steps of the two loops as they overlap. A step is taken in parts that use a channel at
-- most once. No channel is ever closed, and a loop that has come to its end can be stepped again.
namespace SuperChip.Session

structure Overlap (α : Type) where
  session : Session α
  emulatorAt : EmulatorPoint
  presenterAt : PresenterPoint
  -- the steps that the emulation side has begun
  begun : Nat
  -- what the presentation side has looked at, and the orders it has sent
  heeded : List (Option InputEvent)
  ordered : List Message
  -- the messages acted on, each with the number of its step
  obeyed : List (Nat × Message)
  executed : List UInt16

namespace Overlap

variable {α : Type} {w : Overlap α}

def started (machine : Machine) (cycleRate timerRate refreshRate : RateLimiter α) : Overlap α :=
  ⟨.fresh (.fresh machine cycleRate timerRate) (.fresh refreshRate), .between, .between, 0, [], [],
    [], []⟩

-- The message that was taken but not acted on yet.
def inHand (w : Overlap α) : List Message :=
  match w.emulatorAt with
  | .answering message => message.toList
  | _ => []

-- The number of the first step that has acted on nothing yet.
def firstUnspent (w : Overlap α) : Nat :=
  match w.emulatorAt with
  | .answering _ => w.begun
  | _ => w.begun + 1

-- The orders on their way, oldest first.
def waiting (w : Overlap α) : List Message := w.inHand ++ w.session.link.toEmulator.pending

def emulatorPart (w : Overlap α) (next : EmulatorPoint) (result : Emulator.Result α) : Overlap α :=
  { w with
    session := w.session.withEmulator result.state
    emulatorAt := if goesOn result then next else .between }

def presenterPart (w : Overlap α) (next : PresenterPoint) (result : Presenter.Result α) :
    Overlap α :=
  let session := w.session.withPresenter result.state
  { w with
    session
    presenterAt := if goesOn result then next else .between
    ordered := w.ordered ++ sent w.session.link.toEmulator session.link.toEmulator }

-- After a part of a step in which nothing is taken, no message is in hand.
theorem emulatorPart_spent {p : Event → Prop} (next : EmulatorPoint) {result : Emulator.Result α}
    (hsends : Emulator.State.Sends p w.session.emulatorState result.state)
    (hnext : ∀ message, next ≠ .answering message) :
    (w.emulatorPart next result).waiting = w.session.link.toEmulator.pending ∧
      (w.emulatorPart next result).firstUnspent = w.begun + 1 := by
  have hnone : (w.emulatorPart next result).inHand = [] ∧
      (w.emulatorPart next result).firstUnspent = w.begun + 1 := by
    cases hgoes : goesOn result with
    | true =>
      simp only [inHand, firstUnspent, emulatorPart, hgoes, if_true]
      cases next with
      | answering message => exact absurd rfl (hnext message)
      | _ => simp only [and_self]
    | false => simp only [inHand, firstUnspent, emulatorPart, hgoes, if_false, Bool.false_eq_true,
        and_self]
  refine ⟨?_, hnone.2⟩
  rw [waiting, hnone.1, List.nil_append]
  exact congrArg Channel.pending hsends.toEmulator

theorem presenterPart_tells {orders : List Control} {next : PresenterPoint}
    {result : Presenter.Result α}
    (h : result.state.link.toEmulator =
      w.session.link.toEmulator.added (orders.map .control)) :
    let w' := w.presenterPart next result
    w'.session.link.toEmulator = w.session.link.toEmulator.added (orders.map .control) ∧
      w'.ordered = w.ordered ++ orders.map .control := by
  have hordered : (w.presenterPart next result).ordered =
      w.ordered ++ sent w.session.link.toEmulator result.state.link.toEmulator := rfl
  refine ⟨h, ?_⟩
  rw [hordered, h, sent_added]

-- Keeping the record, of an input, of a message that is acted on and of an instruction that is due.
def heeding (w : Overlap α) (input : Option InputEvent) : Overlap α :=
  { w with heeded := w.heeded ++ [input] }

def acting (w : Overlap α) (message : Option Message) : Overlap α :=
  { w with obeyed := w.obeyed ++ message.toList.map (w.begun, ·) }

variable [Sub α] [LT α] [DecidableLT α]

def executing (w : Overlap α) (now : α) : Overlap α :=
  let e := w.session.emulatorState
  let words := if e.cycleRuns now then [e.emulator.machine.nextWord] else []
  { w with executed := w.executed ++ words }

def emulatorMove (dice : Dice) (now : α) (w : Overlap α) : Overlap α :=
  let e := w.session.emulatorState
  match w.emulatorAt with
  | .between =>
    let w := { w with begun := w.begun + 1 }
    match e.link.toEmulator.receive with
    | .error closed => w.emulatorPart .between (.fail e (.channel closed))
    | .ok (message, toEmulator) =>
      w.emulatorPart (.answering message) (.goOn { e with link.toEmulator := toEmulator })
  | .answering message => (w.acting message).emulatorPart .cycling (e.answer message)
  | .cycling =>
    (w.executing now).emulatorPart .ticking (e.whenCycleDue now (Emulator.State.cycle dice))
  | .ticking => w.emulatorPart .between (e.whenTimerDue now Emulator.State.tick)

def presenterMove (input : Option InputEvent) (now : α) (w : Overlap α) : Overlap α :=
  let p := w.session.presenterState
  match w.presenterAt with
  | .between =>
    match input with
    | some .reset => (w.heeding (some .reset)).presenterPart .resuming (p.send .reset)
    | input => (w.heeding input).presenterPart .receiving (p.heedInput input)
  | .resuming => w.presenterPart .receiving ((p.pauseSetTo false).send (.pause false))
  | .receiving => w.presenterPart .between (p.receive now)

def move (dice : Dice) (w : Overlap α) : Move α → Overlap α
  | .emulator now => w.emulatorMove dice now
  | .presenter input now => w.presenterMove input now

def run (dice : Dice) (w : Overlap α) (moves : List (Move α)) : Overlap α :=
  moves.foldl (move dice) w

theorem emulatorMove_answering {message : Option Message} (hat : w.emulatorAt = .answering message)
    (dice : Dice) (now : α) :
    w.emulatorMove dice now =
      (w.acting message).emulatorPart .cycling (w.session.emulatorState.answer message) := by
  simp only [emulatorMove, hat]

theorem emulatorMove_cycling (hat : w.emulatorAt = .cycling) (dice : Dice) (now : α) :
    w.emulatorMove dice now = (w.executing now).emulatorPart .ticking
      (w.session.emulatorState.whenCycleDue now (Emulator.State.cycle dice)) := by
  simp only [emulatorMove, hat]

theorem emulatorMove_ticking (hat : w.emulatorAt = .ticking) (dice : Dice) (now : α) :
    w.emulatorMove dice now = w.emulatorPart .between
      (w.session.emulatorState.whenTimerDue now Emulator.State.tick) := by
  simp only [emulatorMove, hat]

-- What each side leaves to the other.
structure SamePresenter (w w' : Overlap α) : Prop where
  presenter : w'.session.presenter = w.session.presenter
  outputs : w'.session.outputs = w.session.outputs
  presenterAt : w'.presenterAt = w.presenterAt
  heeded : w'.heeded = w.heeded
  ordered : w'.ordered = w.ordered

structure SameEmulator (w w' : Overlap α) : Prop where
  emulator : w'.session.emulator = w.session.emulator
  emulatorAt : w'.emulatorAt = w.emulatorAt
  begun : w'.begun = w.begun
  obeyed : w'.obeyed = w.obeyed
  executed : w'.executed = w.executed

theorem samePresenter_emulatorMove (dice : Dice) (now : α) (w : Overlap α) :
    SamePresenter w (w.emulatorMove dice now) := by
  cases hat : w.emulatorAt with
  | between =>
    simp only [emulatorMove, hat]
    split <;> exact ⟨rfl, rfl, rfl, rfl, rfl⟩
  | answering message =>
    rw [emulatorMove_answering hat]
    exact ⟨rfl, rfl, rfl, rfl, rfl⟩
  | cycling =>
    rw [emulatorMove_cycling hat]
    exact ⟨rfl, rfl, rfl, rfl, rfl⟩
  | ticking =>
    rw [emulatorMove_ticking hat]
    exact ⟨rfl, rfl, rfl, rfl, rfl⟩

theorem sameEmulator_presenterMove (input : Option InputEvent) (now : α) (w : Overlap α) :
    SameEmulator w (w.presenterMove input now) := by
  cases hat : w.presenterAt with
  | between =>
    simp only [presenterMove, hat]
    split <;> exact ⟨rfl, rfl, rfl, rfl, rfl⟩
  | resuming =>
    simp only [presenterMove, hat]
    exact ⟨rfl, rfl, rfl, rfl, rfl⟩
  | receiving =>
    simp only [presenterMove, hat]
    exact ⟨rfl, rfl, rfl, rfl, rfl⟩

structure Open (w : Overlap α) : Prop where
  toEmulator : w.session.link.toEmulator.closed = false
  toScreen : w.session.link.toScreen.closed = false

-- A move of the emulation side acts on the message in hand, or it does not.
structure Acted (w : Overlap α) (message : Option Message) (w' : Overlap α) : Prop where
  waiting : w.waiting = message.toList ++ w'.waiting
  firstUnspent : w'.firstUnspent = w.firstUnspent + 1
  obeyed : w'.obeyed = w.obeyed ++ message.toList.map (w.firstUnspent, ·)
  emulator : w'.session.emulator = w.session.emulator.afterOrder message
  executed : w.executed ⊆ w'.executed

structure Idled (w w' : Overlap α) : Prop where
  waiting : w'.waiting = w.waiting
  firstUnspent : w'.firstUnspent = w.firstUnspent
  obeyed : w'.obeyed = w.obeyed
  paused : w'.session.emulator.paused = w.session.emulator.paused
  executed : w.executed ⊆ w'.executed
  keys : 0x00FD ∉ w'.executed →
    w'.session.emulator.machine.keys = w.session.emulator.machine.keys

theorem idled_between (hopen : w.session.link.toEmulator.closed = false)
    (hat : w.emulatorAt = .between) (dice : Dice) (now : α) :
    Idled w (w.emulatorMove dice now) := by
  simp only [emulatorMove, hat]
  rcases hreceive : w.session.emulatorState.link.toEmulator.receive with
    closed | ⟨message, toEmulator⟩
  · have hclosed : w.session.link.toEmulator.closed = true :=
      Channel.closed_of_receive_error hreceive
    rw [hclosed] at hopen
    cases hopen
  · have hpending : w.session.link.toEmulator.pending = message.toList ++ toEmulator.pending :=
      Channel.pending_of_receive hreceive
    refine ⟨?_, ?_, rfl, rfl, List.Subset.refl _, fun _ => rfl⟩
    · simp only [waiting, inHand, hat, hpending]
      rfl
    · simp only [firstUnspent, hat]
      rfl

theorem acted_answering {message : Option Message} (hat : w.emulatorAt = .answering message)
    (dice : Dice) (now : α) : Acted w message (w.emulatorMove dice now) := by
  have hspent := emulatorPart_spent (w := w.acting message) .cycling
    (Emulator.State.answer_sends w.session.emulatorState message) (by simp)
  rw [emulatorMove_answering hat]
  refine ⟨?_, ?_, ?_, ?_, List.Subset.refl _⟩
  · rw [hspent.1, waiting, inHand, hat]
    rfl
  · rw [hspent.2, firstUnspent, hat]
    rfl
  · rw [firstUnspent, hat]
    rfl
  · exact Emulator.State.answer_emulator w.session.emulatorState message

theorem idled_cycling (hat : w.emulatorAt = .cycling) (dice : Dice) (now : α) :
    Idled w (w.emulatorMove dice now) := by
  have hspent := emulatorPart_spent (w := w.executing now) .ticking
    (Emulator.State.whenCycleDue_sends dice w.session.emulatorState now) (by simp)
  have hkeeps := Emulator.State.whenCycleDue_keeps dice w.session.emulatorState now
  rw [emulatorMove_cycling hat]
  refine ⟨?_, ?_, rfl, hkeeps.1, List.subset_append_left _ _, ?_⟩
  · rw [hspent.1, waiting, inHand, hat]
    rfl
  · rw [hspent.2, firstUnspent, hat]
    rfl
  · intro hexit
    apply Emulator.State.whenCycleDue_keys dice
    intro hruns hword
    apply hexit
    apply List.mem_append_right
    rw [if_pos hruns, hword]
    exact List.mem_singleton_self _

theorem idled_ticking (hat : w.emulatorAt = .ticking) (dice : Dice) (now : α) :
    Idled w (w.emulatorMove dice now) := by
  have hspent := emulatorPart_spent (w := w) .between
    (Emulator.State.whenTimerDue_sends w.session.emulatorState now) (by simp)
  have hkeeps := Emulator.State.whenTimerDue_keeps w.session.emulatorState now
  rw [emulatorMove_ticking hat]
  refine ⟨?_, ?_, rfl, hkeeps.1, List.Subset.refl _, fun _ => hkeeps.2⟩
  · rw [hspent.1, waiting, inHand, hat]
    rfl
  · rw [hspent.2, firstUnspent, hat]

theorem emulatorMove_cases (dice : Dice) (now : α) (h : Open w) :
    Idled w (w.emulatorMove dice now) ∨ ∃ message, Acted w message (w.emulatorMove dice now) := by
  cases hat : w.emulatorAt with
  | between => exact .inl (idled_between h.toEmulator hat dice now)
  | answering message => exact .inr ⟨message, acted_answering hat dice now⟩
  | cycling => exact .inl (idled_cycling hat dice now)
  | ticking => exact .inl (idled_ticking hat dice now)

-- A move of the presentation side while the channels are open.
theorem presenterMove_of_open (h : Open w) (input : Option InputEvent) (now : α) :
    w.presenterMove input now =
      match w.presenterAt with
      | .between =>
        if input = some .reset then (w.heeding input).presenterPart .resuming
          (.goOn (w.session.presenterState.ordering [.reset]))
        else (w.heeding input).presenterPart .receiving
          (.goOn (w.session.presenterState.afterInput input))
      | .resuming => w.presenterPart .receiving
          (.goOn ((w.session.presenterState.pauseSetTo false).ordering [.pause false]))
      | .receiving => w.presenterPart .between (w.session.presenterState.receive now) := by
  have hopen : w.session.presenterState.link.toEmulator.closed = false := h.toEmulator
  unfold presenterMove
  cases w.presenterAt with
  | between =>
    by_cases hreset : input = some .reset
    · subst hreset
      simp only [Presenter.State.send_of_open hopen, if_true]
    · simp only [hreset, if_false, Presenter.State.heedInput_of_open hopen]
  | resuming =>
    have hsend := Presenter.State.send_of_open
      (s := w.session.presenterState.pauseSetTo false) hopen (.pause false)
    simp only [hsend]
  | receiving => rfl

-- What the presentation side sends in its next move, and what it has yet to send for an input.
def tells (w : Overlap α) (input : Option InputEvent) : List Control :=
  match w.presenterAt with
  | .between =>
    if input = some .reset then [.reset]
    else Presenter.orders w.session.presenter.paused w.session.presenter.quitSent input
  | .resuming => [.pause false]
  | .receiving => []

def owed (w : Overlap α) : List Control :=
  match w.presenterAt with
  | .resuming => [.pause false]
  | _ => []

theorem presenterMove_tells (h : Open w) (input : Option InputEvent) (now : α) :
    let w' := w.presenterMove input now
    w'.session.link.toEmulator = w.session.link.toEmulator.added ((w.tells input).map .control) ∧
      w'.ordered = w.ordered ++ (w.tells input).map .control := by
  rw [presenterMove_of_open h]
  unfold tells
  cases hat : w.presenterAt with
  | between =>
    by_cases hreset : input = some .reset
    · simp only [hreset, if_true]
      exact presenterPart_tells rfl
    · simp only [hreset, if_false]
      exact presenterPart_tells rfl
  | resuming => exact presenterPart_tells rfl
  | receiving =>
    refine presenterPart_tells ?_
    exact (Presenter.State.receive_keeps w.session.presenterState now).1.trans
      (Channel.added_nil _).symm

theorem waiting_presenterMove (h : Open w) (input : Option InputEvent) (now : α) :
    (w.presenterMove input now).waiting = w.waiting ++ (w.tells input).map .control := by
  have hsame := sameEmulator_presenterMove input now w
  have htoEmulator := (presenterMove_tells h input now).1
  rw [waiting, waiting, inHand, hsame.emulatorAt, htoEmulator, List.append_assoc]
  rfl

theorem open_emulatorMove (dice : Dice) (now : α) (h : Open w) :
    Open (w.emulatorMove dice now) := by
  have hopen : ∀ {p : Event → Prop} {t : Emulator.State α},
      Emulator.State.Sends p w.session.emulatorState t →
        t.link.toEmulator.closed = false ∧ t.link.toScreen.closed = false := by
    intro p t hsends
    obtain ⟨news, htoScreen, -⟩ := hsends.toScreen
    rw [hsends.toEmulator, htoScreen]
    exact ⟨h.toEmulator, h.toScreen⟩
  cases hat : w.emulatorAt with
  | between =>
    simp only [emulatorMove, hat]
    rcases hreceive : w.session.emulatorState.link.toEmulator.receive with
      closed | ⟨message, toEmulator⟩
    · exact ⟨h.toEmulator, h.toScreen⟩
    · exact ⟨(Channel.receive_ok hreceive).1.trans h.toEmulator, h.toScreen⟩
  | answering message =>
    obtain ⟨htoEmulator, htoScreen⟩ := hopen (Emulator.State.answer_sends _ message)
    rw [emulatorMove_answering hat]
    exact ⟨htoEmulator, htoScreen⟩
  | cycling =>
    obtain ⟨htoEmulator, htoScreen⟩ := hopen (Emulator.State.whenCycleDue_sends dice _ now)
    rw [emulatorMove_cycling hat]
    exact ⟨htoEmulator, htoScreen⟩
  | ticking =>
    obtain ⟨htoEmulator, htoScreen⟩ := hopen (Emulator.State.whenTimerDue_sends _ now)
    rw [emulatorMove_ticking hat]
    exact ⟨htoEmulator, htoScreen⟩

-- Only receiving takes anything of what was sent to the screen.
theorem toScreen_presenterMove (h : Open w) (hat : w.presenterAt ≠ .receiving)
    (input : Option InputEvent) (now : α) :
    let w' := w.presenterMove input now
    w'.session.link.toScreen = w.session.link.toScreen ∧
      w'.session.outputs = w.session.outputs := by
  rw [presenterMove_of_open h]
  cases hp : w.presenterAt with
  | between =>
    dsimp only
    split <;> exact ⟨rfl, rfl⟩
  | resuming => exact ⟨rfl, rfl⟩
  | receiving => exact absurd hp hat

theorem open_presenterMove (input : Option InputEvent) (now : α) (h : Open w) :
    Open (w.presenterMove input now) := by
  refine ⟨?_, ?_⟩
  · rw [(presenterMove_tells h input now).1]
    exact h.toEmulator
  · by_cases hat : w.presenterAt = .receiving
    · have hclosed := (Presenter.State.receive_keeps w.session.presenterState now).2.1
      simp only [presenterMove, hat]
      exact hclosed.trans h.toScreen
    · rw [(toScreen_presenterMove h hat input now).1]
      exact h.toScreen

end Overlap

end SuperChip.Session
