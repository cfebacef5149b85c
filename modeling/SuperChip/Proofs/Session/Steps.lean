import SuperChip.Proofs.Session.Overlap

-- Moves of one side that the other does not come between make up its steps.
namespace SuperChip.Session.Overlap

variable {α : Type} {w : Overlap α} [Sub α] [LT α] [DecidableLT α] {dice : Dice}

def emulatorSide (dice : Dice) : Side (Overlap α) α (Emulator.State α) EmulatorPoint where
  move w now := w.emulatorMove dice now
  state w := w.session.emulatorState
  StandsAt w point := w.emulatorAt = point
  LeadsTo w result w' := w'.session = w.session.withEmulator result.state ∧ w'.emulatorAt = .between

-- The records that are kept on the way are no matter to the step.
theorem emulatorPart_carriesOut (noted : Overlap α)
    {part : Part (Emulator.State α) EmulatorPoint} {now : α}
    (hmove : w.emulatorMove dice now = noted.emulatorPart (part.next.getD .between) part.result)
    (hnoted : noted.session = w.session) : (emulatorSide dice).CarriesOut w now part := by
  obtain ⟨result, next⟩ := part
  have hsession : (noted.emulatorPart (next.getD .between) result).session =
      w.session.withEmulator result.state := by
    rw [← hnoted]
    rfl
  unfold Side.CarriesOut
  rw [show (emulatorSide dice).move w now = _ from hmove]
  cases result with
  | goOn e =>
    cases next with
    | none => exact ⟨[], hsession, rfl⟩
    | some point =>
      refine ⟨rfl, rfl, ?_⟩
      rintro rest w'' ⟨hrest, hat⟩
      refine ⟨hrest.trans ?_, hat⟩
      rw [show (noted.emulatorPart _ _).session = _ from hsession]
      rfl
  | stop e => exact ⟨[], hsession, rfl⟩
  | fail e cause => exact ⟨[], hsession, rfl⟩

theorem emulatorSide_carriesOut (dice : Dice) (w : Overlap α) (point : EmulatorPoint) (now : α)
    (hat : (emulatorSide dice).StandsAt w point) :
    (emulatorSide dice).CarriesOut w now (point.part dice now w.session.emulatorState) := by
  have hpoint : w.emulatorAt = point := hat
  cases point with
  | between =>
    unfold EmulatorPoint.part
    rcases hreceive : w.session.emulatorState.link.toEmulator.receive with
      closed | ⟨message, toEmulator⟩
    · refine emulatorPart_carriesOut { w with begun := w.begun + 1 } ?_ rfl
      simp only [emulatorMove, hpoint, hreceive]
      rfl
    · refine emulatorPart_carriesOut { w with begun := w.begun + 1 } ?_ rfl
      simp only [emulatorMove, hpoint, hreceive]
      rfl
  | answering message =>
    exact emulatorPart_carriesOut _ (emulatorMove_answering hpoint dice now) rfl
  | cycling => exact emulatorPart_carriesOut _ (emulatorMove_cycling hpoint dice now) rfl
  | ticking => exact emulatorPart_carriesOut _ (emulatorMove_ticking hpoint dice now) rfl

theorem exists_moves_emulatorStep (dice : Dice) (hat : w.emulatorAt = .between)
    (cycleTime timerTime : α) :
    ∃ times : List α,
      let w' := w.run dice (times.map .emulator)
      w'.session = (w.session.emulatorStep dice cycleTime timerTime).state ∧
        w'.emulatorAt = .between := by
  obtain ⟨times, hleads⟩ := Side.reaches_emulatorStep (emulatorSide_carriesOut dice) (w := w) hat
    cycleTime timerTime
  refine ⟨times, ?_⟩
  rw [emulatorStep, state_map, run, List.foldl_map]
  exact hleads

variable {input : Option InputEvent} {now : α}

def presenterSide (input : Option InputEvent) (now : α) :
    Side (Overlap α) Unit (Presenter.State α) PresenterPoint where
  move w _ := w.presenterMove input now
  state w := w.session.presenterState
  StandsAt w point := w.presenterAt = point
  LeadsTo w result w' :=
    w'.session = w.session.withPresenter result.state ∧ w'.presenterAt = .between

theorem presenterPart_carriesOut (noted : Overlap α)
    {part : Part (Presenter.State α) PresenterPoint}
    (hmove : w.presenterMove input now =
      noted.presenterPart (part.next.getD .between) part.result)
    (hnoted : noted.session = w.session) : (presenterSide input now).CarriesOut w () part := by
  obtain ⟨result, next⟩ := part
  have hsession : (noted.presenterPart (next.getD .between) result).session =
      w.session.withPresenter result.state := by
    rw [← hnoted]
    rfl
  unfold Side.CarriesOut
  rw [show (presenterSide input now).move w () = _ from hmove]
  cases result with
  | goOn p =>
    cases next with
    | none => exact ⟨[], hsession, rfl⟩
    | some point =>
      refine ⟨rfl, rfl, ?_⟩
      rintro rest w'' ⟨hrest, hat⟩
      refine ⟨hrest.trans ?_, hat⟩
      rw [show (noted.presenterPart _ _).session = _ from hsession]
      rfl
  | stop p => exact ⟨[], hsession, rfl⟩
  | fail p cause => exact ⟨[], hsession, rfl⟩

theorem presenterSide_carriesOut (input : Option InputEvent) (now : α) (w : Overlap α)
    (point : PresenterPoint)
    (hat : (presenterSide input now).StandsAt w point) :
    (presenterSide input now).CarriesOut w () (point.part input now w.session.presenterState) := by
  have hpoint : w.presenterAt = point := hat
  cases point with
  | between =>
    unfold PresenterPoint.part
    by_cases hreset : input = some .reset
    · refine presenterPart_carriesOut (w.heeding input) ?_ rfl
      simp only [presenterMove, hpoint, hreset, if_true]
      rfl
    · refine presenterPart_carriesOut (w.heeding input) ?_ rfl
      simp only [presenterMove, hpoint, hreset, if_false]
      rfl
  | resuming =>
    refine presenterPart_carriesOut w ?_ rfl
    simp only [presenterMove, hpoint]
    rfl
  | receiving =>
    refine presenterPart_carriesOut w ?_ rfl
    simp only [presenterMove, hpoint]
    rfl

theorem exists_moves_presenterStep (dice : Dice) (hat : w.presenterAt = .between)
    (input : Option InputEvent) (now : α) :
    ∃ count : Nat,
      let w' := w.run dice (.replicate count (.presenter input now))
      w'.session = (w.session.presenterStep input now).state ∧ w'.presenterAt = .between := by
  obtain ⟨moves, hleads⟩ := Side.reaches_presenterStep (presenterSide_carriesOut input now)
    (w := w) hat
  refine ⟨moves.length, ?_⟩
  rw [presenterStep, state_map, run, ← List.map_const', List.foldl_map]
  exact hleads

end SuperChip.Session.Overlap
