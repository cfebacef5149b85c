import SuperChip.Failure
import SuperChip.Machine.Notes
import SuperChip.Message
import SuperChip.RateLimiter
import SuperChip.Turn

-- The emulation side: a machine driven at its own rates. It obeys the orders it is sent, at most one
-- a turn, and sends news of pictures, of the beep and of its end.
namespace SuperChip

structure Emulator (α : Type) where
  machine : Machine
  cycleRate : RateLimiter α
  timerRate : RateLimiter α
  paused : Bool
  -- the beep as it was last announced
  beeping : Bool
  running : Bool
  fault : Option Failure

namespace Emulator

variable {α : Type}

def fresh (machine : Machine) (cycleRate timerRate : RateLimiter α) : Emulator α :=
  ⟨machine, cycleRate, timerRate, false, false, false, none⟩

-- An order has keys for one keypad. More than that are cut off.
def keyCount : Nat := 16

-- The emulator with the channels it shares, and what it has noted down.
structure State (α : Type) where
  emulator : Emulator α
  link : Link
  log : List Log.Entry

abbrev Result (α : Type) := Turn (State α) Failure

namespace State

def note (s : State α) (entries : List Log.Entry) : State α := { s with log := s.log ++ entries }

def say (s : State α) (level : Log.Level) (text : String) : State α :=
  s.note [⟨level, .emulationLoop, text⟩]

def withMachine (s : State α) (machine : Machine) : State α :=
  { s with emulator := { s.emulator with machine } }

-- Sending news may find the channel closed.
def send (s : State α) (event : Event) : Result α :=
  match s.link.toScreen.send (.event event) with
  | .ok toScreen => .goOn { s with link := { s.link with toScreen } }
  | .error closed => .fail s (.channel closed)

-- An order changes the machine or the pause. Quitting is answered and ends the loop.
def obey (s : State α) : Control → Result α
  | .keys held => .goOn (s.withMachine { s.emulator.machine with keys := held.take keyCount })
  | .pause paused =>
    let change := if paused then "paused" else "resumed"
    let s := if paused = s.emulator.paused then s else s.say .info s!"Emulation {change}"
    .goOn { s with emulator := { s.emulator with paused } }
  | .reset =>
    let m := s.emulator.machine.reset
    .goOn (((s.say .info "Resetting interpreter").withMachine m).note [m.loadNote])
  | .quit => (s.send .quitAck).andThen .stop

-- Taking at most one message. What is no order is passed over.
def receive (s : State α) : Result α :=
  match s.link.toEmulator.receive with
  | .error closed => .fail s (.channel closed)
  | .ok (message, toEmulator) =>
    let s := { s with link := { s.link with toEmulator } }
    match message with
    | none => .goOn s
    | some (.control order) => s.obey order
    | some other =>
      .goOn (s.say .warning s!"Ignoring unexpected control message {other.describe}")

-- A changed picture is sent off once.
def publish (s : State α) : Result α :=
  let m := s.emulator.machine
  if m.redraw then
    (s.send (.draw m.mode m.snapshot)).andThen fun s => .goOn (s.withMachine { m with redraw := false })
  else .goOn s

-- A word that is no instruction ends the loop, and the screen is told why.
def giveUp (s : State α) (word : UInt16) (address : Int) : Result α :=
  let fault := Fault.unknownWord word address
  let s := s.say .error s!"Fatal decode fault: {fault.message}"
  let s := { s with emulator := { s.emulator with fault := some (.machine fault) } }
  (s.send (.fault fault.message)).andThen .stop

-- One instruction.
def cycle (dice : Dice) (s : State α) : Result α :=
  let (m, fault) := s.emulator.machine.cycle dice
  let s := (s.note s.emulator.machine.cycleNotes).withMachine m
  match fault with
  | none => s.publish
  | some (.unknownWord word address) => s.giveUp word address
  | some fault => .fail s (.machine fault)

-- The beep is announced when it has changed.
def announce (s : State α) : Result α :=
  if s.emulator.beeping = s.emulator.machine.beeping then .goOn s
  else
    let on := !s.emulator.beeping
    { s with emulator := { s.emulator with beeping := on } }.send (.beep on)

def tick (s : State α) : Result α := (s.withMachine s.emulator.machine.tick).announce

variable [Sub α] [LT α] [DecidableLT α]

-- The rates go on while the emulator is paused; only what they let through is skipped.
def whenCycleDue (s : State α) (now : α) (action : State α → Result α) : Result α :=
  let (cycleRate, due) := s.emulator.cycleRate.poll now
  let s := { s with emulator := { s.emulator with cycleRate } }
  if due && !s.emulator.paused then action s else .goOn s

def whenTimerDue (s : State α) (now : α) (action : State α → Result α) : Result α :=
  let (timerRate, due) := s.emulator.timerRate.poll now
  let s := { s with emulator := { s.emulator with timerRate } }
  if due && !s.emulator.paused then action s else .goOn s

-- One turn: an order, an instruction if one is due, the timers if they are due. The clock is read
-- once for each of the two rates.
def step (dice : Dice) (cycleTime timerTime : α) (s : State α) : Result α :=
  (s.receive.andThen fun s => s.whenCycleDue cycleTime (cycle dice)).andThen fun s =>
    s.whenTimerDue timerTime tick

-- The loop as a whole begins, takes turns, and finishes. Whichever way it ends, the screen side is
-- cut off.
def begin (s : State α) : State α :=
  { s with emulator := { s.emulator with running := true } }.say .info "Emulation loop started"

def finish (s : State α) : State α :=
  let link := { s.link with toScreen := s.link.toScreen.close }
  { s with emulator := { s.emulator with running := false }, link }.say .info
    "Emulation loop stopped"

-- What the loop makes of a turn that is the last one.
def settle : Result α → Result α
  | .goOn s => .goOn s
  | .stop s => .stop s.finish
  | .fail s cause =>
    if cause.isExpected then
      let s := s.say .error s!"Emulation stopped: {cause.message}"
      .stop { s with emulator := { s.emulator with fault := some cause } }.finish
    else .fail s.finish cause

-- A loop that was stopped from outside takes no more steps.
def turn (dice : Dice) (cycleTime timerTime : α) (s : State α) : Result α :=
  if s.emulator.running then settle (s.step dice cycleTime timerTime) else .stop s.finish

end State

end Emulator

end SuperChip
