import SuperChip.Program
import SuperChip.Speaker
import SuperChip.Terminal
import SuperChip.Window

-- The program on a text terminal. All decisions are made elsewhere; here files are read, time passes,
-- and what there is to see, hear and read is written.
namespace SuperChip.Terminal

-- What there is under a path.
def lookUp (path : String) : IO RomFile.Found := do
  try
    return .bytes (← IO.FS.readBinFile path).data
  catch
    | .noFileOrDirectory .. | .inappropriateType .. | .noSuchThing .. => return .noFile
    | .permissionDenied _ code details => return .unreadable ⟨code.toNat, details, some path⟩
    | failure => return .unreadable ⟨0, toString failure, some path⟩

-- Seconds on a clock that never goes back.
def now : IO Float := return Number.ofInt (← IO.monoNanosNow) / 1.0e9

def write (text : String) : IO Unit := do
  let out ← IO.getStdout
  out.putStr text
  out.flush

def noteDown (least : Log.Level) (notes : List Log.Entry) : IO Unit :=
  (notes.filter fun note => note.level.isAtLeast least).forM fun note => IO.eprintln note.line

-- The beep is the terminal's bell.
def sound (calls : List Mixer.Call) : IO Unit :=
  calls.forM fun
    | .play _ => write bell
    | _ => pure ()

-- A byte from the keyboard, whenever there is one.
def listen : IO (Task (Except IO.Error ByteArray)) := do
  let input ← IO.getStdin
  IO.asTask (input.read 1)

structure Play where
  session : Session Float
  window : Window
  speaker : Speaker
  typing : Typing
  typed : List UInt8
  listening : Task (Except IO.Error ByteArray)

namespace Play

-- Taking in what was typed. At the end of the input nothing more is listened for.
def hear (p : Play) : IO Play := do
  if !(← IO.hasFinished p.listening) then return p
  match p.listening.get with
  | .ok bytes =>
    if bytes.isEmpty then return p
    else return { p with typed := p.typed ++ bytes.toList, listening := (← listen) }
  | .error _ => return p

def give (p : Play) : Presenter.Output → IO Play
  | .show mode frame => do
    match p.window.present mode frame (← now) with
    | .error _ => return p
    | .ok window =>
      write (page mode frame window.caption)
      return { p with window }
  | .sound on => do
    let (speaker, calls) := p.speaker.set on
    sound calls
    return { p with speaker }

-- One round of the session. A round draws at most once, so that one byte is enough for its dice.
def round (least : Log.Level) (p : Play) : IO Play := do
  let p ← p.hear
  let draw := (← IO.getRandomBytes 1).data.getD 0 0
  let (typing, typed, event) := p.typing.next p.typed
  let session := p.session.round (fun _ => draw) (← now) event
  noteDown least session.log
  let p := { p with session := { session with log := [], outputs := [] }, typing, typed }
  session.outputs.foldlM give p

partial def run (least : Log.Level) (p : Play) : IO Play := do
  if p.session.isOver then return p
  let p ← p.round least
  IO.sleep 1
  p.run least

end Play

-- Playing until the session has ended. What cannot be begun is thrown.
def play (settings : Program.Settings) (scale : Int) (least : Log.Level) (m : Machine) :
    ExceptT Program.Ending IO Program.Ending := do
  let opened ← now
  let window := Window.opened scale defaultTitle opened
  noteDown least [window.openNote]
  let mixer : Mixer := ⟨.ok (Tone.defaultSampleRate, 1), false⟩
  let (speaker, _, notes) ← (Speaker.opened (!settings.noAudio) mixer).mapError fun cause =>
    Program.Ending.broken (.noBeep cause)
  noteDown least notes
  let session ← (Program.session m (.real settings.cpuHz) (.whole Program.timerHz)
    (.whole Program.refreshHz) opened).mapError fun cause => Program.Ending.fault cause.message
  write clear
  let p ← Play.run least ⟨session.begin, window, speaker, .idle, [], ← listen⟩
  sound p.speaker.shutdown.2
  noteDown least (p.session.log ++ [Window.closeNote])
  return .ofFault p.session.fault

-- The program from its command line to its end. Whatever ends it early is thrown.
def perform (line : List String) : ExceptT Program.Ending IO Program.Ending := do
  let settings ← Program.settings line
  let least := Log.levelFor settings.verbosity
  let home ← IO.getEnv "HOME"
  let path ← Program.expandHome (fun user => if user.isEmpty then home else none) settings.rom
  let m ← Program.machine path (← lookUp path)
  noteDown least (Program.machineNotes path m ++ [Program.startNote])
  let ending ← play settings (← settings.windowScale) least m
  if ending = .done then noteDown least [Program.endNote]
  return ending

end SuperChip.Terminal

def main (line : List String) : IO UInt32 := do
  let ending ← match ← (SuperChip.Terminal.perform line).run with
    | .ok ending | .error ending => pure ending
  (← IO.getStdout).putStr ending.output
  (← IO.getStderr).putStr ending.errors
  return ending.code.toUInt32
