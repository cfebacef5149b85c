import SuperChip.Presenter

-- The keyboard: which of its keys stand for the sixteen keys of the keypad, which for orders of the
-- user, and the keypad as the user holds it.
namespace SuperChip

namespace Keyboard

-- What happens on the keyboard and to the window. Keys are known by numbers; letters and digits by
-- those of their characters.
inductive Action where
  | down (key : Int)
  | up (key : Int)
  | close
  | other
  deriving DecidableEq, Repr

-- The block of keys under the left hand, row by row, with the keypad's own order of keys.
def padKeys : List (Char × Fin 16) :=
  [('1', 0x1), ('2', 0x2), ('3', 0x3), ('4', 0xC),
   ('q', 0x4), ('w', 0x5), ('e', 0x6), ('r', 0xD),
   ('a', 0x7), ('s', 0x8), ('d', 0x9), ('f', 0xE),
   ('z', 0xA), ('x', 0x0), ('c', 0xB), ('v', 0xF)]

def padKey? (key : Int) : Option (Fin 16) :=
  (padKeys.find? fun p => (p.1.toNat : Int) = key).map (·.2)

-- Escape, Return and Backspace.
def order? (key : Int) : Option InputEvent :=
  if key = 27 then some .quit
  else if key = 13 then some .togglePause
  else if key = 8 then some .reset
  else none

end Keyboard

-- The keypad as the user holds it, key 0 first.
structure Keypad where
  held : Vector Bool 16
  deriving DecidableEq

namespace Keypad

def released : Keypad := ⟨.replicate 16 false⟩

def toList (k : Keypad) : List Bool := k.held.toList

-- All keys let go of, whatever was held.
def clear (_ : Keypad) : Keypad := released

-- A change to a key of the keypad is told with the whole keypad. Other keys are of no use.
def set (k : Keypad) (key : Int) (down : Bool) : Keypad × Option InputEvent :=
  match Keyboard.padKey? key with
  | none => (k, none)
  | some pad =>
    let k : Keypad := ⟨k.held.setIfInBounds pad down⟩
    (k, some (.keypad k.toList))

def handle (k : Keypad) : Keyboard.Action → Keypad × Option InputEvent
  | .close => (k, some .quit)
  | .down key => match Keyboard.order? key with
    | some order => (k, some order)
    | none => k.set key true
  | .up key => k.set key false
  | .other => (k, none)

-- What a series of actions tells, one answer each.
def handleAll (k : Keypad) : List Keyboard.Action → List (Option InputEvent)
  | [] => []
  | action :: rest => let (k, event) := k.handle action; event :: k.handleAll rest

end Keypad

end SuperChip
