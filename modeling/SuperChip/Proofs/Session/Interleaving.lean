import SuperChip.Session
import SuperChip.Proofs.Emulator.Step

-- A session in which either loop may be held up anywhere: each move takes one loop on by a part of
-- its turn that uses a channel at most once, and any order of the moves is possible.
namespace SuperChip.Session

-- Where the emulation side stands. When it has taken an order it has yet to act on it.
inductive EmulatorStage where
  | starting
  | listening
  | answering (message : Option Message)
  | cycling
  | ticking
  | closing
  | ended

-- Where the presentation side stands. A reset sends two orders, and the end closes two channels.
inductive PresenterStage where
  | starting
  | watching
  | resuming
  | receiving
  | closing
  | leaving
  | ended

def EmulatorStage.isOver : EmulatorStage → Bool
  | .closing => true
  | .ended => true
  | _ => false

def PresenterStage.isOver : PresenterStage → Bool
  | .closing => true
  | .leaving => true
  | .ended => true
  | _ => false

-- What can be seen of a session from outside, in the order in which it happens.
inductive Happening where
  | ordered (message : Message)
  -- news, when they are sent and when they are received
  | reported (message : Message)
  | heard (message : Message)
  -- an instruction, and what was wrong with it
  | executed (fault : Option Fault)
  | ticked
  -- what got in the way of either loop
  | failed (cause : Failure)
  deriving DecidableEq

inductive Move (α : Type) where
  | emulator (now : α)
  | presenter (input : Option InputEvent) (now : α)

structure Race (α : Type) where
  session : Session α
  emulatorAt : EmulatorStage
  presenterAt : PresenterStage
  history : List Happening

-- What went into a channel, and what was taken out of it.
def sent (before after : Channel Message) : List Message :=
  after.pending.drop before.pending.length

def taken (before after : Channel Message) : List Message :=
  before.pending.take (before.pending.length - after.pending.length)

def failures {σ : Type} : Turn σ Failure → List Happening
  | .fail _ cause => [.failed cause]
  | _ => []

def goesOn {σ : Type} : Turn σ Failure → Bool
  | .goOn _ => true
  | _ => false

variable {α : Type}

-- The emulator after a part of its turn. What it failed at is noted before the loop finishes.
def emulatorBlamed : Emulator.Result α → Emulator.State α
  | .goOn e => e
  | .stop e => e
  | .fail e cause =>
    if cause.isExpected then
      { e.say .error s!"Emulation stopped: {cause.message}" with emulator.fault := some cause }
    else e

def presenterBlamed : Presenter.Result α → Presenter.State α
  | .goOn p => p
  | .stop p => p
  | .fail p cause =>
    if cause.isExpected then
      { p.say .error s!"Lost contact with the emulator: {cause.message}" with
        presenter.fault := some cause.message }
    else p

namespace Race

def started (machine : Machine) (cycleRate timerRate refreshRate : RateLimiter α) : Race α :=
  ⟨.fresh (.fresh machine cycleRate timerRate) (.fresh refreshRate), .starting, .starting, []⟩

def emulatorPart (r : Race α) (did : List Happening) (next : EmulatorStage)
    (result : Emulator.Result α) : Race α :=
  let session := r.session.withEmulator (emulatorBlamed result)
  let news := sent r.session.link.toScreen session.link.toScreen
  { r with
    session
    emulatorAt := if goesOn result then next else .closing
    history := r.history ++ did ++ news.map .reported ++ failures result }

def presenterPart (r : Race α) (next : PresenterStage) (result : Presenter.Result α) : Race α :=
  let session := r.session.withPresenter (presenterBlamed result)
  let orders := sent r.session.link.toEmulator session.link.toEmulator
  let news := taken r.session.link.toScreen session.link.toScreen
  { r with
    session
    presenterAt := if goesOn result then next else .closing
    history := r.history ++ orders.map .ordered ++ news.map .heard ++ failures result }

variable [Sub α] [LT α] [DecidableLT α]

def emulatorMove (dice : Dice) (now : α) (r : Race α) : Race α :=
  let e := r.session.emulatorState
  match r.emulatorAt with
  | .starting => { r with session := r.session.beginEmulator, emulatorAt := .listening }
  | .listening =>
    if e.emulator.running then
      match e.link.toEmulator.receive with
      | .error closed => r.emulatorPart [] .listening (.fail e (.channel closed))
      | .ok (message, toEmulator) =>
        r.emulatorPart [] (.answering message)
          (.goOn { e with link := { e.link with toEmulator } })
    else { r with emulatorAt := .closing }
  | .answering message => r.emulatorPart [] .cycling (e.answer message)
  | .cycling =>
    let did := if e.cycleRuns now then [.executed (e.emulator.machine.cycle dice).2] else []
    r.emulatorPart did .ticking (e.whenCycleDue now (Emulator.State.cycle dice))
  | .ticking =>
    let did := if e.timerRuns now then [.ticked] else []
    r.emulatorPart did .listening (e.whenTimerDue now Emulator.State.tick)
  | .closing => { r with session := r.session.finishEmulator, emulatorAt := .ended }
  | .ended => r

def presenterMove (input : Option InputEvent) (now : α) (r : Race α) : Race α :=
  let p := r.session.presenterState
  match r.presenterAt with
  | .starting => { r with session := r.session.beginPresenter, presenterAt := .watching }
  | .watching =>
    match input with
    | some .reset => r.presenterPart .resuming (p.send .reset)
    | input => r.presenterPart .receiving (p.heedInput input)
  | .resuming => r.presenterPart .receiving ((p.pauseSetTo false).send (.pause false))
  | .receiving => r.presenterPart .watching (p.receive now)
  | .closing =>
    { r with
      session.link.toEmulator := r.session.link.toEmulator.close
      presenterAt := .leaving }
  | .leaving => { r with session := r.session.finishPresenter, presenterAt := .ended }
  | .ended => r

def move (dice : Dice) (r : Race α) : Move α → Race α
  | .emulator now => r.emulatorMove dice now
  | .presenter input now => r.presenterMove input now

def run (dice : Dice) (r : Race α) (moves : List (Move α)) : Race α := moves.foldl (move dice) r

end Race

end SuperChip.Session
