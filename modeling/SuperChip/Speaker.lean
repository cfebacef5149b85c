import SuperChip.Log
import SuperChip.Tone

-- The speaker: a beep that is switched on and off through a sound mixer. Without a mixer it is
-- silent.
namespace SuperChip

-- The mixer as it is found: what starting it gives, and whether somebody had started it before.
structure Mixer where
  -- the sample rate and the channels that are granted, or why starting fails
  start : Except String (Int × Int)
  running : Bool

namespace Mixer

-- What a mixer is asked to do.
inductive Call where
  | start (sampleRate bits channels buffer : Int)
  | makeSound (tone : Tone)
  | takeChannel (channel : Nat)
  | play (loops : Int)
  | stop
  | quit
  deriving DecidableEq, Repr

-- A mixer as it is seen by those who use it, with the states that it can be in and the causes for
-- which it refuses a call.
structure Library (σ ε : Type) where
  -- what is granted when it is asked to start, or why it does not start
  start : σ → Call → σ × Except String (Int × Int)
  -- what becomes of it by any other call
  ask : σ → Call → Except ε σ
  running : σ → Bool

-- Calls one after the other, as far as the first that is refused.
def Library.askAll {σ ε : Type} (l : Library σ ε) (m : σ) (calls : List Call) : Except ε σ :=
  calls.foldlM l.ask m

-- A mixer at work: also whether the sound that was made last is played over and over.
structure State extends Mixer where
  looping : Bool

-- A mixer that does all it is asked to do, unless it cannot be started.
def Library.plain : Library State Empty where
  start m _ := match m.start with
    | .ok format => ({ m with running := true }, .ok format)
    | .error reason => (m, .error reason)
  ask m
    | .start .. | .takeChannel _ => .ok m
    | .play loops => .ok { m with looping := loops = -1 }
    | .makeSound _ | .stop => .ok { m with looping := false }
    | .quit => .ok { m with running := false, looping := false }
  running m := m.running

end Mixer

-- A beep with a switch, and the mixer that plays it.
structure Beeper (σ : Type) where
  enabled : Bool
  -- as last asked for, also when there is nothing to be heard
  on : Bool
  -- the beep and the channel it is played on, while they are there
  tone : Option Tone
  channel : Option Nat
  mixer : σ

namespace Beeper

variable {σ ε : Type}

def note (level : Log.Level) (text : String) : Log.Entry := ⟨level, .audio, text⟩

-- What there is to note down about a beeper that is to be silent, about a mixer that does not
-- start, and about one that does.
def silentNote : Log.Entry := note .info "AudioDevice: disabled (silent mode)"

def failedNote (reason : String) : Log.Entry :=
  note .warning s!"AudioDevice: mixer init failed ({reason}); running silent"

def readyNote (sampleRate channels : Int) : Log.Entry :=
  let pitch := Tone.defaultPitch
  note .info s!"AudioDevice: mixer ready at {sampleRate} Hz, {channels} ch ({pitch} Hz tone)"

-- The mixer is asked for sixteen bits with a sign, one channel and a small buffer.
def startCall : Mixer.Call := .start Tone.defaultSampleRate (-16) 1 512

-- Why there is no beeper. A mixer may grant what no beep can be made for.
inductive Failure (ε : Type) where
  | noTone (cause : Tone.Error)
  | refused (cause : ε)

-- A new beeper, what it asked of the mixer, and what there is to note down.
def openedBy (l : Mixer.Library σ ε) (enabled : Bool) (m : σ) :
    Except (Failure ε) (Beeper σ × List Mixer.Call × List Log.Entry) := do
  if !enabled then
    return (⟨false, false, none, none, m⟩, [], [silentNote])
  else match l.start m startCall with
    | (m, .error reason) =>
      return (⟨false, false, none, none, m⟩, [startCall], [failedNote reason])
    | (m, .ok (sampleRate, channels)) =>
      let tone ← (Tone.beep sampleRate channels).mapError .noTone
      let calls := [.makeSound tone, .takeChannel 0]
      let m ← (l.askAll m calls).mapError .refused
      return (⟨true, false, some tone, some 0, m⟩, startCall :: calls,
        [readyNote sampleRate channels])

-- The beep is played over and over until it is stopped.
def setBy (l : Mixer.Library σ ε) (b : Beeper σ) (on : Bool) :
    Except ε (Beeper σ × List Mixer.Call) := do
  let calls := if b.channel.isNone || b.tone.isNone then [] else [if on then .play (-1) else .stop]
  let mixer ← l.askAll b.mixer calls
  return ({ b with on, mixer }, calls)

-- Giving up the beep, and the mixer if it still runs.
def shutdownBy (l : Mixer.Library σ ε) (b : Beeper σ) : Except ε (Beeper σ × List Mixer.Call) := do
  let stops := if b.channel.isSome then [.stop] else []
  let mixer ← l.askAll b.mixer stops
  let quits := if l.running mixer then [.quit] else []
  let mixer ← l.askAll mixer quits
  return ({ b with tone := none, channel := none, mixer }, stops ++ quits)

end Beeper

-- The beeper of the program.
abbrev Speaker := Beeper Mixer.State

namespace Speaker

-- What is never refused.
def granted {α : Type} : Except Empty α → α
  | .ok a => a

theorem ok_granted {α : Type} (result : Except Empty α) : .ok (granted result) = result := by
  cases result with
  | ok a => rfl
  | error cause => nomatch cause

def opened (enabled : Bool) (mixer : Mixer) :
    Except Tone.Error (Speaker × List Mixer.Call × List Log.Entry) :=
  (Beeper.openedBy .plain enabled ⟨mixer, false⟩).mapError fun
    | .noTone cause => cause

def set (s : Speaker) (on : Bool) : Speaker × List Mixer.Call := granted (s.setBy .plain on)

def shutdown (s : Speaker) : Speaker × List Mixer.Call := granted (s.shutdownBy .plain)

theorem setBy_plain (s : Speaker) (on : Bool) : s.setBy .plain on = .ok (s.set on) :=
  (ok_granted _).symm

theorem shutdownBy_plain (s : Speaker) : s.shutdownBy .plain = .ok s.shutdown :=
  (ok_granted _).symm

end Speaker

end SuperChip
