import SuperChip.CommandLine
import SuperChip.Keyboard
import SuperChip.RomFile
import SuperChip.Session
import SuperChip.Tone

-- The program as a whole: from the command line to the machine that a session is played on, and
-- from the end of the session to what is written and returned.
namespace SuperChip.Program

-- What the program cannot go on with although the command line was accepted.
inductive Breakdown where
  | noRate
  | noScale
  -- a user's name with a zero character
  | zeroInName
  | noBeep (cause : Tone.Error)
  deriving DecidableEq, Repr

def Breakdown.message : Breakdown → String
  | noRate => "'<=' not supported between instances of 'list' and 'int'"
  | noScale => "'<' not supported between instances of 'list' and 'int'"
  | zeroInName => "embedded null byte"
  | noBeep cause => cause.message

-- How the program ends.
inductive Ending where
  | help
  | refused (cause : CommandLine.Refusal)
  | romFailed (cause : RomFile.Error)
  | fault (reason : String)
  | broken (cause : Breakdown)
  | done
  deriving DecidableEq, Repr

namespace Ending

def code : Ending → Nat
  | help => 0
  | refused _ => 2
  | romFailed _ => 1
  | fault _ => 1
  | broken _ => 1
  | done => 0

def output : Ending → String
  | help => CommandLine.helpText
  | _ => ""

def errors : Ending → String
  | help => ""
  | refused cause => CommandLine.refusalText cause
  | romFailed cause => s!"Error: {cause.message}\n"
  | fault reason => s!"Fatal error: {reason}\n"
  | broken cause => s!"{cause.message}\n"
  | done => ""

-- The command line alone can end the program before it has begun its work.
def isEarly : Ending → Bool
  | help | refused _ => true
  | _ => false

-- A session ends with a fault or without one.
def ofFault : Option String → Ending
  | some reason => fault reason
  | none => done

end Ending

-- What the program works with once its command line was understood.
structure Settings where
  rom : String
  cpuHz : Float
  noAudio : Bool
  verbosity : Nat
  -- looked at only when the window is opened
  scale : Option Int

-- The settings of a command line that asks for a session at a possible rate.
def settings (line : List String) : Except Ending Settings :=
  match CommandLine.parse line with
  | .error .help => .error .help
  | .error (.refused cause) => .error (.refused cause)
  | .ok args => match args.cpuHz with
    | none => .error (.broken .noRate)
    | some cpuHz =>
      if cpuHz ≤ 0 then .error (.refused .badRate)
      else .ok ⟨args.rom, cpuHz, args.noAudio, args.verbosity, args.scale⟩

def Settings.windowScale (s : Settings) : Except Ending Int :=
  match s.scale with
  | some scale => .ok scale
  | none => .error (.broken .noScale)

-- A path that begins with a tilde means a home directory: the user's own one, or that of the user
-- named right behind the tilde. An unknown home leaves the path as it is.
def expandHome (home : String → Option String) (path : String) : Except Ending String :=
  match path.toList with
  | '~' :: cs =>
    let name := cs.takeWhile (· ≠ '/')
    let rest := cs.dropWhile (· ≠ '/')
    if name.contains '\x00' then .error (.broken .zeroInName)
    else match home (String.ofList name) with
      | none => .ok path
      | some dir =>
        let dir := (dir.toList.reverse.dropWhile (· = '/')).reverse
        .ok (if (dir ++ rest).isEmpty then "/" else String.ofList (dir ++ rest))
  | _ => .ok path

-- The machine to play on, with the program that was found under the path.
def machine (path : String) (found : RomFile.Found) : Except Ending Machine :=
  (RomFile.create path found).mapError .romFailed

-- The end of a path, behind the last slash.
def fileName (path : String) : String :=
  String.ofList (path.toList.reverse.takeWhile (· ≠ '/')).reverse

-- What is noted down about a program that was read and a machine that was made for it.
def machineNotes (path : String) (m : Machine) : List Log.Entry :=
  let name := fileName path
  [⟨.debug, .romFile, s!"Read {m.rom.size} bytes from {path}"⟩, m.loadNote,
    ⟨.info, .factory, s!"Created {m.describe} from {name}"⟩]

def startNote : Log.Entry := ⟨.info, .program, "Starting emulation ..."⟩

def endNote : Log.Entry := ⟨.info, .program, "Exited cleanly"⟩

-- Rates at which the timers count and pictures are shown, per second.
def timerHz : Int := 60

def refreshHz : Int := 120

def cpuHz : Int := 500

-- Seconds between two turns of a loop.
def idleSleep : Float := 0.001

-- A user who does one thing after the other at the keyboard.
def typed (actions : List Keyboard.Action) : List Session.Cue :=
  (Keypad.released.handleAll actions).map .ofInput

-- A session before its loops have begun.
def session (m : Machine) (cpuHz timerHz refreshHz : Number.Quantity) (now : Float) :
    Except RateLimiter.Error (Session Float) := do
  let cycleRate ← RateLimiter.start cpuHz now
  let timerRate ← RateLimiter.start timerHz now
  let refreshRate ← RateLimiter.start refreshHz now
  return .fresh (.fresh m cycleRate timerRate) (.fresh refreshRate)

-- The time on a clock that starts at zero and knows no other time than that between the rounds.
def clockAt (round : Nat) : Float := Number.ofInt round * idleSleep

-- A session from its beginning, with what its user does. A user who waits for what never comes is
-- given up in the end.
def play (dice : Dice) (cues : List Session.Cue) (s : Session Float) : Session Float :=
  s.begin.play dice clockAt 200000 1 cues

end SuperChip.Program
