import SuperChip.Machine.Basic
import SuperChip.Text.Quoted

-- Programs come from files: a file is nothing but the bytes of the program.
namespace SuperChip

namespace RomFile

-- Why the system could not read a file, in its own words.
structure ReadFailure where
  number : Int
  text : String
  file : Option String
  deriving DecidableEq, Repr

def ReadFailure.message (e : ReadFailure) : String :=
  s!"[Errno {e.number}] {e.text}" ++ match e.file with
    | some file => s!": {Text.quoted file}"
    | none => ""

-- What there is under a path.
inductive Found where
  -- nothing, or something that is no file
  | noFile
  | unreadable (cause : ReadFailure)
  | bytes (contents : Array UInt8)

inductive Error where
  | notFound (path : String)
  | unreadable (path : String) (cause : ReadFailure)
  | tooLarge (cause : RomTooLarge)
  deriving DecidableEq, Repr

def Error.message : Error → String
  | .notFound path => s!"ROM file not found: {path}"
  | .unreadable path cause => s!"Cannot read ROM {path}: {cause.message}"
  | .tooLarge cause => cause.message

-- Whether a program of a size fits.
def checkSize (size : Nat) : Except RomTooLarge Unit :=
  if size > maxRomSize then .error ⟨size⟩ else .ok ()

def read (path : String) : Found → Except Error (Array UInt8)
  | .noFile => .error (.notFound path)
  | .unreadable cause => .error (.unreadable path cause)
  | .bytes contents => do
    (checkSize contents.size).mapError .tooLarge
    return contents

-- A new machine with the program of a file.
def create (path : String) (found : Found) : Except Error Machine := do
  let rom ← read path found
  (Machine.powerOn.load rom).mapError .tooLarge

end RomFile

end SuperChip
