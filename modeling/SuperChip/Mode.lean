-- The two display modes. Both share one canvas of 128 by 64 pixels; a mode says which part of it
-- sprites can reach and which part is shown.
namespace SuperChip

inductive Mode where
  | standard
  | super
  deriving DecidableEq, Repr, Inhabited

namespace Mode

-- Sprites in standard mode reach the left half of the canvas only.
def width : Mode → Nat
  | standard => 64
  | super => 128

def height : Mode → Nat
  | standard => 32
  | super => 64

def name : Mode → String
  | standard => "STANDARD"
  | super => "SUPER"

def number : Mode → Nat
  | standard => 0
  | super => 1

-- A number that stands for no mode.
structure NoMode where
  number : Int
  deriving DecidableEq, Repr

def NoMode.message (e : NoMode) : String := s!"{e.number} is not a valid Mode"

def ofNumber (n : Int) : Except NoMode Mode :=
  if n = 0 then .ok standard else if n = 1 then .ok super else .error ⟨n⟩

theorem ofNumber_number (mode : Mode) : ofNumber mode.number = .ok mode := by cases mode <;> rfl

theorem width_pos (mode : Mode) : 0 < mode.width := by cases mode <;> decide

theorem height_pos (mode : Mode) : 0 < mode.height := by cases mode <;> decide

theorem width_le (mode : Mode) : mode.width ≤ 128 := by cases mode <;> decide

theorem height_le (mode : Mode) : mode.height ≤ 64 := by cases mode <;> decide

end Mode

end SuperChip
