import SuperChip.Emulator
import SuperChip.Presenter

-- A session: the two loops side by side, joined by their channels, from start to end.
namespace SuperChip

structure Session (α : Type) where
  emulator : Emulator α
  presenter : Presenter α
  link : Link
  log : List Log.Entry
  outputs : List Presenter.Output
  -- whether each loop still takes turns
  emulating : Bool
  presenting : Bool

namespace Session

variable {α : Type}

def emulatorState (s : Session α) : Emulator.State α := ⟨s.emulator, s.link, s.log⟩

def presenterState (s : Session α) : Presenter.State α := ⟨s.presenter, s.link, s.log, s.outputs⟩

def withEmulator (s : Session α) (e : Emulator.State α) : Session α :=
  { s with emulator := e.emulator, link := e.link, log := e.log }

def withPresenter (s : Session α) (p : Presenter.State α) : Session α :=
  { s with presenter := p.presenter, link := p.link, log := p.log, outputs := p.outputs }

-- Two loops on new channels, before either has begun.
def fresh (emulator : Emulator α) (presenter : Presenter α) : Session α :=
  ⟨emulator, presenter, .fresh, [], [], false, false⟩

def beginEmulator (s : Session α) : Session α :=
  { s.withEmulator s.emulatorState.begin with emulating := true }

def beginPresenter (s : Session α) : Session α :=
  { s.withPresenter s.presenterState.begin with presenting := true }

def finishEmulator (s : Session α) : Session α :=
  { s.withEmulator s.emulatorState.finish with emulating := false }

def finishPresenter (s : Session α) : Session α :=
  { s.withPresenter s.presenterState.finish with presenting := false }

def begin (s : Session α) : Session α := s.beginEmulator.beginPresenter

-- A failure that reaches a loop between two turns ends it as one of its own would.
def interruptEmulator (cause : Failure) (s : Session α) : Turn (Session α) Failure :=
  (Emulator.State.settle (.fail s.emulatorState cause)).map fun e =>
    { s.withEmulator e with emulating := false }

def interruptPresenter (cause : Failure) (s : Session α) : Turn (Session α) Failure :=
  (Presenter.State.settle (.fail s.presenterState cause)).map fun p =>
    { s.withPresenter p with presenting := false }

variable [Sub α] [LT α] [DecidableLT α]

-- What a single step of either loop does to the session, whether or not the loop has begun.
def emulatorStep (dice : Dice) (cycleTime timerTime : α) (s : Session α) :
    Turn (Session α) Failure :=
  (s.emulatorState.step dice cycleTime timerTime).map s.withEmulator

def presenterStep (input : Option InputEvent) (now : α) (s : Session α) :
    Turn (Session α) Failure :=
  (s.presenterState.step input now).map s.withPresenter

-- A loop that has ended takes no more turns.
def noteEmulatorEnd : Turn (Session α) Failure → Turn (Session α) Failure
  | .goOn s => .goOn s
  | .stop s => .stop { s with emulating := false }
  | .fail s cause => .fail { s with emulating := false } cause

def notePresenterEnd : Turn (Session α) Failure → Turn (Session α) Failure
  | .goOn s => .goOn s
  | .stop s => .stop { s with presenting := false }
  | .fail s cause => .fail { s with presenting := false } cause

-- The same as a step for a turn of a loop that has begun. On the last one the loop finishes.
def emulatorTurn (dice : Dice) (cycleTime timerTime : α) (s : Session α) :
    Turn (Session α) Failure :=
  noteEmulatorEnd ((s.emulatorState.turn dice cycleTime timerTime).map s.withEmulator)

def presenterTurn (input : Option InputEvent) (now : α) (s : Session α) :
    Turn (Session α) Failure :=
  notePresenterEnd ((s.presenterState.turn input now).map s.withPresenter)

-- A turn of each loop that has not ended, the emulation side first. What a loop does not deal with
-- itself ends it just the same.
def round (dice : Dice) (now : α) (input : Option InputEvent) (s : Session α) : Session α :=
  let s := if s.emulating then (s.emulatorTurn dice now now).state else s
  if s.presenting then (s.presenterTurn input now).state else s

-- What ended the session, if it was a fault. What the emulator noticed itself counts first.
def fault (s : Session α) : Option String :=
  match s.emulator.fault with
  | some failure => some failure.message
  | none => s.presenter.fault

def isOver (s : Session α) : Bool := !s.emulating && !s.presenting

def framesShown (s : Session α) : Nat :=
  (s.outputs.filter fun
    | .show _ _ => true
    | .sound _ => false).length

def soundsMade (s : Session α) : Nat :=
  (s.outputs.filter fun
    | .show _ _ => false
    | .sound _ => true).length

-- A user who follows a script.
inductive Cue where
  | event (event : InputEvent)
  -- doing nothing for a number of turns
  | idle (turns : Nat)
  -- doing nothing until so much was shown and sounded, and for one more turn
  | waitFor (frames sounds : Nat)
  deriving DecidableEq, Repr

def Cue.ofInput : Option InputEvent → Cue
  | some input => .event input
  | none => .idle 1

-- What the user does next, and the rest of the script.
def nextCue (frames sounds : Nat) : List Cue → List Cue × Option InputEvent
  | [] => ([], none)
  | .event event :: rest => (rest, some event)
  | .idle 0 :: rest => nextCue frames sounds rest
  | .idle (turns + 1) :: rest => (.idle turns :: rest, none)
  | .waitFor f s :: rest =>
    if f ≤ frames ∧ s ≤ sounds then (rest, none) else (.waitFor f s :: rest, none)

-- The loops taking turns until both have ended or the given number of rounds is over.
def play (dice : Dice) (clock : Nat → α) : Nat → Nat → List Cue → Session α → Session α
  | 0, _, _, s => s
  | rounds + 1, time, cues, s =>
    if s.isOver then s
    else
      let (cues, input) := nextCue s.framesShown s.soundsMade cues
      play dice clock rounds (time + 1) cues (s.round dice (clock time) input)

end Session

end SuperChip
