import SuperChip.Keyboard

-- A text terminal as screen and keyboard. Pictures are drawn with block characters, and keys are the
-- bytes that are typed.
namespace SuperChip.Terminal

-- Two pixels, one above the other, share a character.
def block (upper lower : Bool) : Char :=
  match upper, lower with
  | false, false => ' '
  | true, false => '▀'
  | false, true => '▄'
  | true, true => '█'

-- The part of a frame that a mode shows, line by line.
def lines (mode : Mode) (frame : Frame) : List String :=
  (List.range (mode.height / 2)).map fun line =>
    String.ofList ((List.range mode.width).map fun x =>
      block (frame.litAt x (2 * line)) (frame.litAt x (2 * line + 1)))

-- What begins an order to the terminal.
def escape : String := String.singleton (Char.ofNat 27) ++ "["

-- Orders to empty the terminal, and to go on writing at its top left.
def clear : String := escape ++ "2J"

def home : String := escape ++ "H"

-- A picture over the one before it, and a caption below.
def page (mode : Mode) (frame : Frame) (caption : String) : String :=
  home ++ "\n".intercalate (lines mode frame) ++ "\n" ++ caption ++ escape ++ "K\n"

def bell : String := String.singleton (Char.ofNat 7)

-- The key that a byte was typed with. Terminals send either of two bytes for Backspace.
def keyOf (byte : UInt8) : Int := if byte = 127 then 8 else byte.toNat

-- A terminal does not tell when a key is released. A key counts as held for a number of turns after
-- it was typed last.
structure Typing where
  keypad : Keypad
  held : Option (Int × Nat)

namespace Typing

def idle : Typing := ⟨.released, none⟩

def holdTurns : Nat := 150

def act (t : Typing) (action : Keyboard.Action) (held : Option (Int × Nat)) :
    Typing × Option InputEvent :=
  let (keypad, event) := t.keypad.handle action
  (⟨keypad, held⟩, event)

def press (t : Typing) (key : Int) : Typing × Option InputEvent :=
  t.act (.down key) (if (Keyboard.padKey? key).isSome then some (key, holdTurns) else none)

-- One turn with the bytes that are waiting: what they tell, and the bytes that go on waiting. A key
-- that is still held is released before another one is pressed.
def next (t : Typing) (typed : List UInt8) : Typing × List UInt8 × Option InputEvent :=
  match t.held, typed with
  | none, [] => (t, [], none)
  | none, byte :: rest =>
    let (t, event) := t.press (keyOf byte)
    (t, rest, event)
  | some (_, turns + 1), [] => ({ t with held := t.held.map fun h => (h.1, turns) }, [], none)
  | some (key, 0), [] =>
    let (t, event) := t.act (.up key) none
    (t, [], event)
  | some (key, _), byte :: rest =>
    if keyOf byte = key then ({ t with held := some (key, holdTurns) }, rest, none)
    else
      let (t, event) := t.act (.up key) none
      (t, typed, event)

end Typing

end SuperChip.Terminal
