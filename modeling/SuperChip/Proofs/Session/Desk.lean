import SuperChip.Proofs.Keyboard
import SuperChip.Proofs.Machine.Run
import SuperChip.Proofs.Session.Orders
import Mathlib.Data.List.DropRight

-- The keyboard in front of the two sides, and how its keypad reaches the machine. The presentation
-- side looks at one action a step, and what happens on the keypad during a pause is not passed on.
namespace SuperChip

namespace Keypad

open Keyboard (Action order?)

theorem eq_of_handle_reset {k : Keypad} {action : Action}
    (h : (k.handle action).2 = some .reset) : action = .down 8 := by
  unfold handle set order? at h
  grind

theorem take_toList (k : Keypad) : k.toList.take Emulator.keyCount = k.toList := by
  have hlength : k.toList.length = 16 := Vector.length_toList
  exact List.take_of_length_le hlength.le

end Keypad

-- The keys that a message sets, if it sets any. A reset lets go of all of them.
def Message.keysSet? : Message → Option (List Bool)
  | .control (.keys held) => some (held.take Emulator.keyCount)
  | .control .reset => some Keypad.released.toList
  | _ => none

theorem Emulator.afterOrder_keys {α : Type} (e : Emulator α) (message : Option Message) :
    (e.afterOrder message).machine.keys =
      latest Message.keysSet? e.machine.keys message.toList := by
  rcases message with _ | ⟨order | event | text⟩
  · rfl
  · cases order <;> rfl
  · rfl
  · rfl

theorem Presenter.keysSet_orders {input : Option InputEvent}
    (hkeypad : ∀ held, input ≠ some (.keypad held)) (hreset : input ≠ some .reset)
    (paused quitSent : Bool) (initial : List Bool) :
    latest Message.keysSet? initial ((orders paused quitSent input).map .control) = initial := by
  rcases input with _ | event
  · rfl
  · cases event with
    | quit => cases quitSent <;> rfl
    | togglePause => rfl
    | reset => exact absurd rfl hreset
    | keypad held => exact absurd rfl (hkeypad held)
    | other => rfl

structure Desk (α : Type) where
  overlap : Session.Overlap α
  keypad : Keypad
  -- what the presentation side has looked at, and whether that was during a pause
  polled : List (Keyboard.Action × Bool)

namespace Desk

open Keyboard (Action)
open Session (Overlap)

variable {α : Type} {d : Desk α}

def started (machine : Machine) (cycleRate timerRate refreshRate : RateLimiter α) : Desk α :=
  ⟨.started machine cycleRate timerRate refreshRate, .released, []⟩

inductive Move (α : Type) where
  | emulator (now : α)
  | presenter (action : Option Action) (now : α)

-- What is not passed on as a change of the keypad.
def isSkipped (look : Action × Bool) : Bool := look.2 || !look.1.isPad

-- The keypad as it was when a change of it was last passed on.
def passedOn (polled : List (Action × Bool)) : List Action :=
  (polled.rdropWhile isSkipped).map Prod.fst

def lastTold (polled : List (Action × Bool)) : Keypad := Keypad.released.after (passedOn polled)

-- Backspace asks for a reset.
def NoReset (d : Desk α) : Prop := ∀ p ∈ d.polled, p.1 ≠ .down 8

structure Followed (d : Desk α) : Prop where
  isOpen : d.overlap.Open
  agreed : d.overlap.Agreed
  keypad : d.keypad = Keypad.released.after (d.polled.map Prod.fst)
  machine : 0x00FD ∉ d.overlap.executed → d.overlap.session.emulator.machine.keys =
    latest Message.keysSet? Keypad.released.toList d.overlap.obeyedOrders
  told : d.NoReset → latest Message.keysSet? Keypad.released.toList d.overlap.ordered =
    (lastTold d.polled).toList

theorem started_followed {machine : Machine} (hkeys : machine.keys = Keypad.released.toList)
    (cycleRate timerRate refreshRate : RateLimiter α) :
    Followed (started machine cycleRate timerRate refreshRate) := by
  refine ⟨⟨rfl, rfl⟩, Overlap.started_agreed machine cycleRate timerRate refreshRate, rfl, ?_, ?_⟩
  · exact fun _ => hkeys
  · exact fun _ => rfl

theorem lastTold_skipped (polled : List (Action × Bool)) {look : Action × Bool}
    (hlook : isSkipped look = true) : lastTold (polled ++ [look]) = lastTold polled := by
  rw [lastTold, passedOn, List.rdropWhile_concat_pos _ _ _ hlook]
  rfl

theorem lastTold_passed (polled : List (Action × Bool)) {look : Action × Bool}
    (hlook : isSkipped look = false) :
    lastTold (polled ++ [look]) = Keypad.released.after (polled.map Prod.fst ++ [look.1]) := by
  rw [lastTold, passedOn, List.rdropWhile_concat_neg _ _ _ (Bool.eq_false_iff.mp hlook),
    List.map_append]
  rfl

-- What a step begins with is told at once, if it is told at all.
theorem Followed.told_looked (h : Followed d) (hat : d.overlap.presenterAt = .between)
    (action : Action) (hreset : action ≠ .down 8) :
    latest Message.keysSet? (lastTold d.polled).toList
        ((d.overlap.tells (d.keypad.handle action).2).map .control) =
      (lastTold (d.polled ++ [(action, d.overlap.session.presenter.paused)])).toList := by
  have hinput : (d.keypad.handle action).2 ≠ some .reset := by
    intro hinput
    exact hreset (Keypad.eq_of_handle_reset hinput)
  simp only [Overlap.tells, hat, hinput, if_false]
  cases hpad : action.isPad with
  | false =>
    have hkeypad := (d.keypad.handle_of_not_isPad hpad).2
    rw [Presenter.keysSet_orders hkeypad hinput, lastTold_skipped _ (by simp [isSkipped, hpad])]
  | true =>
    rw [d.keypad.handle_of_isPad hpad]
    cases hpaused : d.overlap.session.presenter.paused with
    | true =>
      rw [lastTold_skipped _ rfl]
      rfl
    | false =>
      rw [lastTold_passed _ (by simp [isSkipped, hpad]), Keypad.after_concat, ← h.keypad]
      exact Keypad.take_toList _

theorem keypad_of_skipped (h : Followed d)
    (hskipped : ∀ look ∈ d.polled.rtakeWhile isSkipped, look.1.isPad = false) :
    d.keypad = lastTold d.polled := by
  have hactions : ∀ action ∈ (d.polled.rtakeWhile isSkipped).map Prod.fst,
      action.isPad = false := by
    intro action haction
    obtain ⟨look, hlook, rfl⟩ := List.mem_map.mp haction
    exact hskipped look hlook
  have hsplit := List.rdropWhile_append_rtakeWhile (p := isSkipped) (l := d.polled)
  rw [h.keypad, ← hsplit, List.map_append, Keypad.after, List.foldl_append, hsplit]
  exact Keypad.after_of_not_isPad _ hactions

theorem keysSet_tells_none (w : Overlap α) (initial : List Bool) :
    latest Message.keysSet? initial ((w.tells none).map .control) = initial := by
  unfold Overlap.tells
  cases w.presenterAt <;> rfl

variable [Sub α] [LT α] [DecidableLT α]

-- The keyboard is looked at when a step begins. There may be nothing to see.
def presenterMove (action : Option Action) (now : α) (d : Desk α) : Desk α :=
  match d.overlap.presenterAt, action with
  | .between, some action =>
    let (keypad, input) := d.keypad.handle action
    { overlap := d.overlap.presenterMove input now
      keypad
      polled := d.polled ++ [(action, d.overlap.session.presenter.paused)] }
  | _, _ => { d with overlap := d.overlap.presenterMove none now }

def move (dice : Dice) (d : Desk α) : Move α → Desk α
  | .emulator now => { d with overlap := d.overlap.emulatorMove dice now }
  | .presenter action now => d.presenterMove action now

def run (dice : Dice) (d : Desk α) (moves : List (Move α)) : Desk α := moves.foldl (move dice) d

theorem Followed.emulatorMove (h : Followed d) (dice : Dice) (now : α) :
    Followed (d.move dice (.emulator now)) := by
  have hsame := Overlap.samePresenter_emulatorMove dice now d.overlap
  refine ⟨Overlap.open_emulatorMove dice now h.isOpen, h.agreed.emulatorMove h.isOpen dice now,
    h.keypad, ?_, ?_⟩
  · intro hexit
    simp only [move] at hexit ⊢
    rcases Overlap.emulatorMove_cases dice now h.isOpen with hidled | ⟨message, hacted⟩
    · have hbefore := h.machine fun hmem => hexit (hidled.executed hmem)
      rw [hidled.keys hexit, hbefore, Overlap.obeyedOrders_of_idled hidled]
    · have hbefore := h.machine fun hmem => hexit (hacted.executed hmem)
      rw [hacted.emulator, Emulator.afterOrder_keys, hbefore,
        Overlap.obeyedOrders_of_acted hacted, latest_append]
  · intro hreset
    exact (congrArg _ hsame.ordered).trans (h.told hreset)

theorem Followed.machine_presenterMove (h : Followed d) (input : Option InputEvent) (now : α) :
    let w := d.overlap.presenterMove input now
    0x00FD ∉ w.executed → w.session.emulator.machine.keys =
      latest Message.keysSet? Keypad.released.toList w.obeyedOrders := by
  intro w hexit
  have hsame := Overlap.sameEmulator_presenterMove input now d.overlap
  rw [hsame.executed] at hexit
  rw [hsame.emulator, Overlap.obeyedOrders, hsame.obeyed]
  exact h.machine hexit

theorem Followed.looked (h : Followed d) (hat : d.overlap.presenterAt = .between) (action : Action)
    (now : α) :
    Followed
      { overlap := d.overlap.presenterMove (d.keypad.handle action).2 now
        keypad := (d.keypad.handle action).1
        polled := d.polled ++ [(action, d.overlap.session.presenter.paused)] } := by
  let input := (d.keypad.handle action).2
  have hordered := (Overlap.presenterMove_tells h.isOpen input now).2
  refine ⟨Overlap.open_presenterMove input now h.isOpen, h.agreed.presenterMove h.isOpen input now,
    ?_, h.machine_presenterMove input now, ?_⟩
  · rw [List.map_append, h.keypad]
    exact (Keypad.after_concat _ _ _).symm
  · intro hreset
    have hbefore : d.NoReset := fun look hlook => hreset look (List.mem_append_left _ hlook)
    have hlast : action ≠ .down 8 := hreset (action, _) List.mem_concat_self
    rw [hordered, latest_append, h.told hbefore]
    exact h.told_looked hat action hlast

theorem Followed.notLooked (h : Followed d) (now : α) :
    Followed { d with overlap := d.overlap.presenterMove none now } := by
  have hordered := (Overlap.presenterMove_tells h.isOpen none now).2
  refine ⟨Overlap.open_presenterMove none now h.isOpen, h.agreed.presenterMove h.isOpen none now,
    h.keypad, h.machine_presenterMove none now, ?_⟩
  · intro hreset
    rw [hordered, latest_append, keysSet_tells_none]
    exact h.told hreset

theorem Followed.presenterMove (h : Followed d) (action : Option Action) (now : α) :
    Followed (d.presenterMove action now) := by
  unfold Desk.presenterMove
  split
  · next action hat => exact h.looked hat action now
  · exact h.notLooked now

theorem run_followed (dice : Dice) (h : Followed d) (moves : List (Move α)) :
    Followed (d.run dice moves) := by
  induction moves generalizing d with
  | nil => exact h
  | cons move rest ih =>
    cases move with
    | emulator now => exact ih (h.emulatorMove dice now)
    | presenter action now => exact ih (h.presenterMove action now)

-- As long as there is no reset, the machine has the keys of the keypad whenever it is told nothing
-- more and there is no pause.
def HasKeypad (d : Desk α) : Prop :=
  d.NoReset → 0x00FD ∉ d.overlap.executed → d.overlap.presenterAt = .between →
    d.overlap.session.presenter.paused = false → d.overlap.waiting = [] →
      d.overlap.session.emulator.machine.keys = d.keypad.toList

-- An action, and time for the emulation side to do what it is told.
def handled (action : Action) : List (Move Int) :=
  [.presenter (some action) 0, .presenter none 0] ++ .replicate 4 (.emulator 0)

-- A key that is held when a pause begins, and is not when it ends.
def releaseInPause : List (Move Int) :=
  handled (.down 119) ++ handled (.down 13) ++ handled (.up 119) ++ handled (.down 13)

theorem released_key_stuck :
    ¬ ∀ (rom : Array UInt8) (machine : Machine) (rate : RateLimiter Int) (moves : List (Move Int)),
      Machine.powerOn.load rom = .ok machine →
        HasKeypad ((started machine rate rate rate).run (fun _ => 0) moves) := by
  intro hall
  have hload : Machine.powerOn.load #[] = .ok (Machine.powerOn.withRom #[]) :=
    Machine.load_of_fits (by decide)
  let d := (started (Machine.powerOn.withRom #[]) ⟨1, 0⟩ ⟨1, 0⟩ ⟨1, 0⟩).run (fun _ => 0)
    releaseInPause
  have hkeypad : HasKeypad d := hall #[] _ ⟨1, 0⟩ releaseInPause hload
  have hreset : ∀ look ∈ d.polled, look.1 ≠ .down 8 := by decide +kernel
  have hexit : 0x00FD ∉ d.overlap.executed := by decide +kernel
  have hat : d.overlap.presenterAt = .between := by decide +kernel
  have hpaused : d.overlap.session.presenter.paused = false := by decide +kernel
  have hwaiting : d.overlap.waiting = [] := by decide +kernel
  have hstuck : d.overlap.session.emulator.machine.keys ≠ d.keypad.toList := by decide +kernel
  clear_value d
  exact hstuck (hkeypad hreset hexit hat hpaused hwaiting)

-- As long as there is no reset, a machine that is told nothing more has the keys as they were when a
-- change of the keypad was last seen outside a pause. That is the keypad itself if no change has been
-- seen in a pause since.
theorem keys_lastTold (dice : Dice) {machine : Machine} {rom : Array UInt8}
    (hload : Machine.powerOn.load rom = .ok machine)
    (cycleRate timerRate refreshRate : RateLimiter α) (moves : List (Move α)) :
    let d := (started machine cycleRate timerRate refreshRate).run dice moves
    d.NoReset → 0x00FD ∉ d.overlap.executed → d.overlap.waiting = [] →
      d.overlap.session.emulator.machine.keys = (lastTold d.polled).toList ∧
      ((∀ look ∈ d.polled.rtakeWhile isSkipped, look.1.isPad = false) →
        d.overlap.session.emulator.machine.keys = d.keypad.toList) := by
  intro d hreset hexit hwaiting
  have hkeys : machine.keys = Keypad.released.toList := by
    unfold Machine.load at hload
    split at hload
    · cases hload
    · cases hload
      rfl
  have h : Followed d :=
    run_followed dice (started_followed hkeys cycleRate timerRate refreshRate) moves
  have hobeyed : d.overlap.obeyedOrders = d.overlap.ordered := by
    have haccounted := h.agreed.accounted
    rwa [hwaiting, List.append_nil] at haccounted
  have hlast : d.overlap.session.emulator.machine.keys = (lastTold d.polled).toList := by
    rw [h.machine hexit, hobeyed, h.told hreset]
  refine ⟨hlast, ?_⟩
  intro hskipped
  rw [hlast, keypad_of_skipped h hskipped]

-- The key that got stuck is let go of with the next change of the keypad.
theorem keys_lastTold_released :
    let d := (started (Machine.powerOn.withRom #[]) ⟨(1 : Int), 0⟩ ⟨1, 0⟩ ⟨1, 0⟩).run (fun _ => 0)
      (releaseInPause ++ handled (.down 113))
    d.NoReset ∧ d.overlap.waiting = [] ∧
      d.overlap.session.emulator.machine.keys = d.keypad.toList := by
  intro d
  have hload : Machine.powerOn.load #[] = .ok (Machine.powerOn.withRom #[]) :=
    Machine.load_of_fits (by decide)
  have hreset : ∀ look ∈ d.polled, look.1 ≠ .down 8 := by decide +kernel
  have hexit : 0x00FD ∉ d.overlap.executed := by decide +kernel
  have hwaiting : d.overlap.waiting = [] := by decide +kernel
  have hskipped : ∀ look ∈ d.polled.rtakeWhile isSkipped, look.1.isPad = false := by
    decide +kernel
  have hkeys := keys_lastTold (fun _ => 0) hload ⟨(1 : Int), 0⟩ ⟨1, 0⟩ ⟨1, 0⟩
    (releaseInPause ++ handled (.down 113)) hreset hexit hwaiting
  exact ⟨hreset, hwaiting, hkeys.2 hskipped⟩

end Desk

end SuperChip
