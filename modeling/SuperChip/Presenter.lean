import SuperChip.Failure
import SuperChip.Log
import SuperChip.Message
import SuperChip.RateLimiter
import SuperChip.Turn

-- The presentation side: it passes on what the user does and shows and sounds what the emulator
-- sends, at most one of each a turn.
namespace SuperChip

-- What the user did.
inductive InputEvent where
  | quit
  | togglePause
  | reset
  -- the whole keypad after a change
  | keypad (held : List Bool)
  -- anything the emulator has no use for
  | other
  deriving DecidableEq, Repr

structure Presenter (α : Type) where
  refreshRate : RateLimiter α
  paused : Bool
  quitSent : Bool
  fault : Option String

namespace Presenter

variable {α : Type}

def fresh (refreshRate : RateLimiter α) : Presenter α := ⟨refreshRate, false, false, none⟩

-- What the screen and the speaker are told.
inductive Output where
  | show (mode : Mode) (frame : Frame)
  | sound (on : Bool)
  deriving DecidableEq

-- The presenter with the channels it shares, what it has noted down and what it has given out.
structure State (α : Type) where
  presenter : Presenter α
  link : Link
  log : List Log.Entry
  outputs : List Output

abbrev Result (α : Type) := Turn (State α) Failure

namespace State

def say (s : State α) (level : Log.Level) (text : String) : State α :=
  { s with log := s.log ++ [⟨level, .presentationLoop, text⟩] }

def give (s : State α) (output : Output) : State α := { s with outputs := s.outputs ++ [output] }

-- Sending an order may find the channel closed.
def send (s : State α) (order : Control) : Result α :=
  match s.link.toEmulator.send (.control order) with
  | .ok toEmulator => .goOn { s with link := { s.link with toEmulator } }
  | .error closed => .fail s (.channel closed)

def pauseSetTo (s : State α) (paused : Bool) : State α :=
  { s with presenter := { s.presenter with paused } }

-- Quitting is passed on once. A reset also ends a pause. Keys are not passed on during a pause.
def heed (s : State α) : InputEvent → Result α
  | .quit =>
    if s.presenter.quitSent then .goOn s
    else { s with presenter := { s.presenter with quitSent := true } }.send .quit
  | .togglePause =>
    let paused := !s.presenter.paused
    (s.pauseSetTo paused).send (.pause paused)
  | .reset => (s.send .reset).andThen fun s => (s.pauseSetTo false).send (.pause false)
  | .keypad held => if s.presenter.paused then .goOn s else s.send (.keys held)
  | .other => .goOn s

def heedInput (s : State α) : Option InputEvent → Result α
  | none => .goOn s
  | some event => s.heed event

variable [Sub α] [LT α] [DecidableLT α]

-- A picture is shown if one is due and there is no pause. One that comes too early is lost.
def refresh (s : State α) (now : α) (mode : Mode) (frame : Frame) : State α :=
  let (refreshRate, due) := s.presenter.refreshRate.poll now
  let s := { s with presenter := { s.presenter with refreshRate } }
  if due && !s.presenter.paused then s.give (.show mode frame) else s

-- News of the end of the emulator ends the loop.
def follow (s : State α) (now : α) : Event → Result α
  | .beep on => .goOn (s.give (.sound on))
  | .draw mode frame => .goOn (s.refresh now mode frame)
  | .quitAck => .stop s
  | .fault reason =>
    let s := s.say .error s!"Emulator fault: {reason}"
    .stop { s with presenter := { s.presenter with fault := some reason } }

-- Taking at most one message. What is no news is passed over.
def receive (now : α) (s : State α) : Result α :=
  match s.link.toScreen.receive with
  | .error closed => .fail s (.channel closed)
  | .ok (message, toScreen) =>
    let s := { s with link := { s.link with toScreen } }
    match message with
    | none => .goOn s
    | some (.event event) => s.follow now event
    | some other =>
      .goOn (s.say .warning s!"Ignoring unexpected emulator event {other.describe}")

-- One turn: what the user did, if anything, and what the emulator sent.
def step (input : Option InputEvent) (now : α) (s : State α) : Result α :=
  (s.heedInput input).andThen (receive now)

def begin (s : State α) : State α := s.say .info "Presentation loop started"

-- Whichever way the loop ends, it closes both channels.
def finish (s : State α) : State α :=
  { s with link := ⟨s.link.toEmulator.close, s.link.toScreen.close⟩ }.say .info
    "Presentation loop stopped"

-- What the loop makes of a turn that is the last one. A channel that was closed before the emulator
-- reported its end is a fault.
def settle : Result α → Result α
  | .goOn s => .goOn s
  | .stop s => .stop s.finish
  | .fail s cause =>
    if cause.isExpected then
      let s := s.say .error s!"Lost contact with the emulator: {cause.message}"
      .stop { s with presenter := { s.presenter with fault := some cause.message } }.finish
    else .fail s.finish cause

def turn (input : Option InputEvent) (now : α) (s : State α) : Result α :=
  settle (s.step input now)

end State

end Presenter

end SuperChip
