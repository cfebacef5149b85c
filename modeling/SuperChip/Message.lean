import SuperChip.Channel
import SuperChip.Mode
import SuperChip.Frame
import SuperChip.Text.Quoted
import SuperChip.Text.Tuple

-- What the two loops tell each other.
namespace SuperChip

-- Orders to the emulator.
inductive Control where
  -- the whole keypad, key 0 first
  | keys (held : List Bool)
  | pause (paused : Bool)
  | reset
  | quit
  deriving DecidableEq

-- News from the emulator.
inductive Event where
  -- a new picture
  | draw (mode : Mode) (frame : Frame)
  | beep (on : Bool)
  -- the emulator has stopped because it was told to
  | quitAck
  -- the emulator has stopped because the program cannot go on
  | fault (reason : String)
  deriving DecidableEq

-- Anything that can be put into a channel, also what its receiver has no use for.
inductive Message where
  | control (c : Control)
  | event (e : Event)
  | text (s : String)
  deriving DecidableEq

def boolText (b : Bool) : String := if b then "True" else "False"

def Control.describe : Control → String
  | keys held =>
    let flags := Text.tuple (held.map boolText)
    s!"KeysMessage(keys={flags})"
  | pause paused => s!"PauseMessage(paused={boolText paused})"
  | reset => "ResetMessage()"
  | quit => "QuitMessage()"

-- The picture itself is not described.
def Event.describe : Event → String
  | draw mode _ => s!"DrawEvent(mode=<Mode.{mode.name}: {mode.number}>)"
  | beep on => s!"BeepEvent(on={boolText on})"
  | quitAck => "QuitAck()"
  | fault reason => s!"FaultEvent(reason={Text.quoted reason})"

def Message.describe : Message → String
  | control c => c.describe
  | event e => e.describe
  | text s => Text.quoted s

-- The two channels between the loops.
structure Link where
  toEmulator : Channel Message
  toScreen : Channel Message
  deriving DecidableEq

def Link.fresh : Link := ⟨.opened "ui->emu", .opened "emu->ui"⟩

end SuperChip
