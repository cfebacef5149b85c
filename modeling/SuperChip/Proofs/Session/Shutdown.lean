import SuperChip.Proofs.Session.Sound

-- How a session ends, whatever the order in which its two loops move.
namespace SuperChip.Session

variable {α : Type} {r : Race α}

-- The last news heard are the last that were ever reported, and nothing was done on the emulation
-- side since. Either they answer an order to quit, or they tell of the word that was just found to
-- be no instruction, and then the session has that fault.
def Race.EndsInOrder (r : Race α) : Prop :=
  ∃ before last after, r.history = before ++ .reported last :: after ∧
    (messages heard r.history).getLast? = some last ∧ (∀ x ∈ after, ¬ x.IsEmulation) ∧
    (last = .event .quitAck ∧ r.session.fault = none ∨
      ∃ word address,
        let cause := Fault.unknownWord word address
        before.getLast? = some (.executed (some cause)) ∧
          last = .event (.fault cause.message) ∧ r.session.fault = some cause.message)

theorem Sound.endsInOrder (h : Sound r) (hover : r.presenterAt.isOver = true) :
    r.EndsInOrder := by
  obtain ⟨final, hfinal, hend, hclean⟩ := h.presented hover
  have hemulated : r.emulatorAt.isOver = true := by
    cases hat : r.emulatorAt.isOver with
    | true => rfl
    | false => exact absurd hover (Bool.eq_false_iff.mp (h.presenting_of_emulating hat))
  obtain ⟨before, last, after, hhistory, hreason, hplain, hstill⟩ := h.emulated hemulated
  have hsplit : messages reported before ++ [last] =
      messages heard r.history ++ r.session.link.toScreen.pending := by
    rw [← h.reports, hhistory, reported_of_still hstill]
  obtain rfl := eq_of_end_heard hsplit hplain hfinal hend
  refine ⟨before, final, after, hhistory, hfinal, hstill, ?_⟩
  generalize hfault : r.session.emulator.fault = fault at hreason
  cases hreason with
  | quit =>
    left
    exact ⟨rfl, by simp only [fault, hfault, hclean rfl]⟩
  | fault before word address =>
    right
    refine ⟨word, address, List.getLast?_concat, rfl, ?_⟩
    simp only [fault, hfault, Failure.message]

variable [Sub α] [LT α] [DecidableLT α]

-- However the two loops are held up, quitting is ordered once at most, nothing fails, and the
-- presentation side does not end before the session has ended in order.
theorem shutdown_safe (dice : Dice) {rom : Array UInt8} {machine : Machine}
    (hload : Machine.powerOn.load rom = .ok machine)
    (cycleRate timerRate refreshRate : RateLimiter α) (moves : List (Move α))
    (hmoves : ∀ move ∈ moves, move.IsWhole) :
    let r := (Race.started machine cycleRate timerRate refreshRate).run dice moves
    (messages ordered r.history).count (.control .quit) ≤ 1 ∧
      (∀ cause, .failed cause ∉ r.history) ∧
      (r.presenterAt.isOver = true → r.EndsInOrder) := by
  intro r
  have hm : machine.WellFormed := Machine.powerOn_wellFormed.load hload
  have h : Sound r :=
    sound_run dice (sound_started hm cycleRate timerRate refreshRate) moves hmoves
  refine ⟨?_, h.calm, h.endsInOrder⟩
  rw [h.quits]
  split <;> decide

-- A user who quits at once, and a screen side that is done before the emulation side closes.
def quitting : List (Move Int) :=
  [.emulator 0, .presenter none 0, .presenter (some .quit) 0, .emulator 0, .emulator 0,
    .presenter none 0, .presenter none 0, .presenter none 0, .emulator 0]

theorem shutdown_safe_quitting :
    let idle : RateLimiter Int := ⟨1000, 0⟩
    let r := (Race.started (Machine.powerOn.withRom #[]) idle idle idle).run (fun _ => 0) quitting
    r.session.isOver = true ∧ (messages ordered r.history).count (.control .quit) ≤ 1 ∧
      r.session.fault = none := by
  intro idle r
  have hload : Machine.powerOn.load #[] = .ok (Machine.powerOn.withRom #[]) :=
    Machine.load_of_fits (by decide)
  obtain ⟨hquits, -, hshutdown⟩ := shutdown_safe (fun _ => 0) hload idle idle idle quitting
    (by simp [quitting, Move.IsWhole, InputIsWhole])
  have hover : r.session.isOver = true ∧ r.presenterAt.isOver = true := by decide +kernel
  have hheard : messages heard r.history = [.event .quitAck] := by decide +kernel
  obtain ⟨before, last, after, -, hlast, -, hreason⟩ := hshutdown hover.2
  rcases hreason with ⟨-, hfault⟩ | ⟨word, address, -, rfl, -⟩
  · exact ⟨hover.1, hquits, hfault⟩
  · rw [hheard] at hlast
    cases hlast

end SuperChip.Session
