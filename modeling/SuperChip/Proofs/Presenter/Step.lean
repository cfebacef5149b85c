import SuperChip.Presenter
import SuperChip.Proofs.Channel

-- What the two halves of a presenter's turn come to while the channel to the emulator is open.
namespace SuperChip

def Message.beep? : Message → Option Bool
  | .event (.beep on) => some on
  | _ => none

namespace Presenter

def Output.sound? : Output → Option Bool
  | .sound on => some on
  | .show _ _ => none

def sounds (outputs : List Output) : List Bool := outputs.filterMap Output.sound?

variable {α : Type}

def pausedAfter (paused : Bool) : Option InputEvent → Bool
  | some .togglePause => !paused
  | some .reset => false
  | _ => paused

def quitAfter (quitSent : Bool) : Option InputEvent → Bool
  | some .quit => true
  | _ => quitSent

-- What an input makes the presenter tell the emulator.
def orders (paused quitSent : Bool) : Option InputEvent → List Control
  | some .quit => if quitSent then [] else [.quit]
  | some .togglePause => [.pause !paused]
  | some .reset => [.reset, .pause false]
  | some (.keypad held) => if paused then [] else [.keys held]
  | _ => []

-- What a series of inputs makes it tell.
def ordersFor (paused quitSent : Bool) : List (Option InputEvent) → List Control
  | [] => []
  | input :: rest =>
    orders paused quitSent input ++ ordersFor (pausedAfter paused input) (quitAfter quitSent input) rest

theorem ordersFor_concat (paused quitSent : Bool) (inputs : List (Option InputEvent))
    (last : Option InputEvent) :
    ordersFor paused quitSent (inputs ++ [last]) =
      ordersFor paused quitSent inputs ++
        orders (inputs.foldl pausedAfter paused) (inputs.foldl quitAfter quitSent) last := by
  induction inputs generalizing paused quitSent with
  | nil => simp only [List.nil_append, ordersFor, List.append_nil, List.foldl_nil]
  | cons input rest ih =>
    simp only [List.cons_append, ordersFor, ih, List.append_assoc, List.foldl_cons]

namespace State

variable {s : State α}

def ordering (s : State α) (orders : List Control) : State α :=
  { s with link := { s.link with toEmulator := s.link.toEmulator.added (orders.map .control) } }

-- The presenter after an input. The screen and the log are left as they are.
def afterInput (s : State α) (input : Option InputEvent) : State α :=
  let paused := pausedAfter s.presenter.paused input
  let quitSent := quitAfter s.presenter.quitSent input
  { s with presenter := { s.presenter with paused, quitSent } }.ordering
    (orders s.presenter.paused s.presenter.quitSent input)

theorem send_of_open (h : s.link.toEmulator.closed = false) (order : Control) :
    s.send order = .goOn (s.ordering [order]) := by
  simp only [send, Channel.send_of_open h, ordering, List.map_cons, List.map_nil]

theorem ordering_nil (s : State α) : s.ordering [] = s := by
  simp only [ordering, List.map_nil, Channel.added_nil]

theorem heedInput_of_open (h : s.link.toEmulator.closed = false) (input : Option InputEvent) :
    s.heedInput input = .goOn (s.afterInput input) := by
  obtain ⟨⟨refreshRate, paused, quitSent, fault⟩, link, log, outputs⟩ := s
  rcases input with _ | event
  · exact congrArg Turn.goOn (ordering_nil _).symm
  cases event with
  | quit =>
    cases quitSent with
    | true => exact congrArg Turn.goOn (ordering_nil _).symm
    | false => exact send_of_open (s := ⟨⟨_, _, true, _⟩, link, log, outputs⟩) h .quit
  | togglePause => exact send_of_open (s := ⟨⟨_, !paused, _, _⟩, link, log, outputs⟩) h _
  | reset =>
    simp only [heedInput, heed, send_of_open h, Turn.andThen_goOn]
    exact (send_of_open (by exact h) _).trans (by
      simp only [afterInput, ordering, pauseSetTo, orders, quitAfter, pausedAfter,
        Channel.added_added, List.map_cons, List.map_nil, List.cons_append, List.nil_append])
  | keypad held =>
    cases paused with
    | true => exact congrArg Turn.goOn (ordering_nil _).symm
    | false => exact send_of_open h _
  | other => exact congrArg Turn.goOn (ordering_nil _).symm

def taken (s : State α) : State α :=
  { s with
    link.toScreen := { s.link.toScreen with pending := s.link.toScreen.pending.tail } }

theorem taken_of_nil (hp : s.link.toScreen.pending = []) : s.taken = s := by
  simp only [taken, hp, List.tail_nil]
  rw [← hp]

variable [Sub α] [LT α] [DecidableLT α]

theorem receive_of_nil (hp : s.link.toScreen.pending = []) (hc : s.link.toScreen.closed = false)
    (now : α) : receive now s = .goOn s := by
  simp only [receive, Channel.receive_of_nil hp hc]

theorem receive_of_event {event : Event} {rest : List Message}
    (hp : s.link.toScreen.pending = .event event :: rest) (now : α) :
    receive now s = s.taken.follow now event := by
  simp only [receive, Channel.receive_of_cons hp, taken, hp, List.tail_cons]

theorem receive_of_other {message : Message} {rest : List Message}
    (hp : s.link.toScreen.pending = message :: rest) (hm : ∀ event, message ≠ .event event)
    (now : α) :
    receive now s = .goOn (s.taken.say .warning
      s!"Ignoring unexpected emulator event {message.describe}") := by
  simp only [receive, Channel.receive_of_cons hp, taken, hp, List.tail_cons]

theorem refresh_link (s : State α) (now : α) (mode : Mode) (frame : Frame) :
    (s.refresh now mode frame).link = s.link := by
  simp only [refresh]
  split <;> rfl

theorem refresh_presenter (s : State α) (now : α) (mode : Mode) (frame : Frame) :
    (s.refresh now mode frame).presenter =
      { s.presenter with refreshRate := (s.presenter.refreshRate.poll now).1 } := by
  simp only [refresh]
  split <;> rfl

theorem refresh_sounds (s : State α) (now : α) (mode : Mode) (frame : Frame) :
    Presenter.sounds (s.refresh now mode frame).outputs = Presenter.sounds s.outputs := by
  simp only [refresh]
  split
  · simp only [Presenter.sounds, give, List.filterMap_append, List.filterMap_cons, Output.sound?,
      List.filterMap_nil, List.append_nil]
  · rfl

theorem follow_keeps (s : State α) (now : α) (event : Event) :
    (s.follow now event).state.link = s.link ∧
      (s.follow now event).state.presenter.paused = s.presenter.paused := by
  cases event with
  | draw mode frame =>
    simp only [follow, Turn.state]
    rw [refresh_link, refresh_presenter]
    exact ⟨rfl, rfl⟩
  | beep on => exact ⟨rfl, rfl⟩
  | quitAck => exact ⟨rfl, rfl⟩
  | fault reason => exact ⟨rfl, rfl⟩

theorem follow_quitSent (s : State α) (now : α) (event : Event) :
    (s.follow now event).state.presenter.quitSent = s.presenter.quitSent := by
  cases event with
  | draw mode frame =>
    simp only [follow, Turn.state]
    rw [refresh_presenter]
  | beep on => rfl
  | quitAck => rfl
  | fault reason => rfl

-- Receiving is no matter to the orders, and it closes nothing.
theorem receive_keeps (s : State α) (now : α) :
    let t := (receive now s).state
    t.link.toEmulator = s.link.toEmulator ∧ t.link.toScreen.closed = s.link.toScreen.closed ∧
      t.presenter.paused = s.presenter.paused ∧ t.presenter.quitSent = s.presenter.quitSent := by
  unfold receive
  rcases hreceive : s.link.toScreen.receive with closed | ⟨message, toScreen⟩
  · exact ⟨rfl, rfl, rfl, rfl⟩
  · have hclosed := (Channel.receive_ok hreceive).1
    rcases message with _ | ⟨order | event | text⟩
    · exact ⟨rfl, hclosed, rfl, rfl⟩
    · exact ⟨rfl, hclosed, rfl, rfl⟩
    · have hquitSent := follow_quitSent { s with link := { s.link with toScreen } } now event
      obtain ⟨hlink, hpaused⟩ := follow_keeps { s with link := { s.link with toScreen } } now event
      have htoEmulator := congrArg Link.toEmulator hlink
      have htoScreen := congrArg (fun link => link.toScreen.closed) hlink
      exact ⟨htoEmulator, htoScreen.trans hclosed, hpaused, hquitSent⟩
    · exact ⟨rfl, hclosed, rfl, rfl⟩

end State

end Presenter

end SuperChip
