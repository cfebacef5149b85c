-- What the program notes down about its own work.
namespace SuperChip.Log

inductive Level where
  | debug
  | info
  | warning
  | error
  deriving DecidableEq, Repr

def Level.name : Level → String
  | debug => "DEBUG"
  | info => "INFO"
  | warning => "WARNING"
  | error => "ERROR"

def Level.rank : Level → Nat
  | debug => 0
  | info => 1
  | warning => 2
  | error => 3

-- Whether notes of a level are wanted by somebody who asked for a least level.
def Level.isAtLeast (level least : Level) : Bool := least.rank ≤ level.rank

-- The part of the program a note comes from.
inductive Origin where
  | program
  | romFile
  | factory
  | interpreter
  | emulationLoop
  | presentationLoop
  | window
  | audio
  | keyboard
  deriving DecidableEq, Repr

def Origin.name : Origin → String
  | program => "schip8.main"
  | romFile => "schip8.shell.services.rom_bytes_service"
  | factory => "schip8.shell.services.machine_factory"
  | interpreter => "schip8.core.interpreter"
  | emulationLoop => "schip8.core.emulation_loop"
  | presentationLoop => "schip8.shell.presentation_loop"
  | window => "schip8.platform.window"
  | audio => "schip8.platform.audio"
  | keyboard => "schip8.platform.input_handler"

structure Entry where
  level : Level
  origin : Origin
  text : String
  deriving DecidableEq, Repr

-- A note on a line of its own.
def Entry.line (e : Entry) : String := s!"{e.level.name} {e.origin.name}: {e.text}"

-- How much to note down: more for each time that more was asked for.
def levelFor (verbosity : Int) : Level :=
  if verbosity ≥ 2 then .debug else if verbosity ≥ 1 then .info else .warning

def lineFormat : String := "%(asctime)s [%(levelname)s] %(name)s: %(message)s"

def timeFormat : String := "%H:%M:%S"

end SuperChip.Log
