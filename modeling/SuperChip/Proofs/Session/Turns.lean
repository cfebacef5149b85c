import SuperChip.Proofs.Session.Side

-- Moves that are not held up come to the turns of the two loops.
namespace SuperChip.Session.Race

variable {α : Type} {r : Race α}

theorem settle_emulator {result : Emulator.Result α} (h : goesOn result = false) :
    goesOn (Emulator.State.settle result) = false ∧
      (Emulator.State.settle result).state = (emulatorBlamed result).finish := by
  cases result with
  | goOn e => cases h
  | stop e => exact ⟨rfl, rfl⟩
  | fail e cause =>
    simp only [Emulator.State.settle, emulatorBlamed]
    split <;> exact ⟨rfl, rfl⟩

theorem settle_presenter {result : Presenter.Result α} (h : goesOn result = false) :
    goesOn (Presenter.State.settle result) = false ∧
      (Presenter.State.settle result).state = (presenterBlamed result).finish := by
  cases result with
  | goOn p => cases h
  | stop p => exact ⟨rfl, rfl⟩
  | fail p cause =>
    simp only [Presenter.State.settle, presenterBlamed]
    split <;> exact ⟨rfl, rfl⟩

theorem noteEmulatorEnd_state {t : Turn (Session α) Failure} (h : goesOn t = false) :
    (noteEmulatorEnd t).state = { t.state with emulating := false } := by
  cases t with
  | goOn s => cases h
  | stop s => rfl
  | fail s cause => rfl

theorem notePresenterEnd_state {t : Turn (Session α) Failure} (h : goesOn t = false) :
    (notePresenterEnd t).state = { t.state with presenting := false } := by
  cases t with
  | goOn s => cases h
  | stop s => rfl
  | fail s cause => rfl

theorem goesOn_noteEmulatorEnd (t : Turn (Session α) Failure) :
    goesOn (noteEmulatorEnd t) = goesOn t := by
  cases t <;> rfl

theorem goesOn_settle_emulator (result : Emulator.Result α) :
    goesOn (Emulator.State.settle result) = goesOn result := by
  cases h : goesOn result with
  | true => cases result <;> first | rfl | cases h
  | false => exact (settle_emulator h).1

theorem goesOn_notePresenterEnd (t : Turn (Session α) Failure) :
    goesOn (notePresenterEnd t) = goesOn t := by
  cases t <;> rfl

theorem goesOn_settle_presenter (result : Presenter.Result α) :
    goesOn (Presenter.State.settle result) = goesOn result := by
  cases h : goesOn result with
  | true => cases result <;> first | rfl | cases h
  | false => exact (settle_presenter h).1

variable [Sub α] [LT α] [DecidableLT α] {dice : Dice}

-- Where a race stands between two parts of a turn.
def stageOf : EmulatorPoint → EmulatorStage
  | .between => .listening
  | .answering message => .answering message
  | .cycling => .cycling
  | .ticking => .ticking

def emulatorSide (dice : Dice) : Side (Race α) α (Emulator.State α) EmulatorPoint where
  move r now := r.emulatorMove dice now
  state r := r.session.emulatorState
  StandsAt r point := r.emulatorAt = stageOf point ∧
    (point = .between → r.session.emulator.running = true)
  LeadsTo r result r' :=
    r'.session =
        (noteEmulatorEnd ((Emulator.State.settle result).map r.session.withEmulator)).state ∧
      r'.emulatorAt = if goesOn result then .listening else .ended

-- After the part that ends its turn a loop only finishes.
theorem emulatorPart_ends (did : List Happening) (next : EmulatorStage)
    {result : Emulator.Result α} (hend : goesOn result = false) (now : α) :
    (emulatorSide dice).LeadsTo r result
      ((r.emulatorPart did next result).emulatorMove dice now) := by
  obtain ⟨hover, hstate⟩ := settle_emulator hend
  simp only [emulatorSide]
  rw [noteEmulatorEnd_state (by rw [goesOn_map]; exact hover), state_map, hstate]
  simp only [emulatorMove, emulatorPart, hend, if_false, Bool.false_eq_true, and_true]
  rfl

theorem emulatorPart_carriesOut (did : List Happening)
    {part : Part (Emulator.State α) EmulatorPoint} {now : α} (hnext : part.next ≠ some .between)
    (hmove : r.emulatorMove dice now =
      r.emulatorPart did (stageOf (part.next.getD .between)) part.result) :
    (emulatorSide dice).CarriesOut r now part := by
  obtain ⟨result, next⟩ := part
  unfold Side.CarriesOut
  rw [show (emulatorSide dice).move r now = _ from hmove]
  cases result with
  | goOn e =>
    cases next with
    | none => exact ⟨[], rfl, rfl⟩
    | some point =>
      exact ⟨⟨rfl, fun hbetween => absurd (congrArg some hbetween) hnext⟩, rfl, fun _ _ => id⟩
  | stop e => exact ⟨[now], emulatorPart_ends did _ rfl now⟩
  | fail e cause => exact ⟨[now], emulatorPart_ends did _ rfl now⟩

theorem exists_emulatorPart (dice : Dice) (r : Race α) (point : EmulatorPoint) (now : α)
    (hat : (emulatorSide dice).StandsAt r point) :
    let part := point.part dice now r.session.emulatorState
    ∃ did : List Happening,
      r.emulatorMove dice now =
        r.emulatorPart did (stageOf (part.next.getD .between)) part.result := by
  obtain ⟨hstage, hrunning⟩ := hat
  cases point with
  | between =>
    have hon : r.session.emulatorState.emulator.running = true := hrunning rfl
    refine ⟨[], ?_⟩
    simp only [emulatorMove, hstage, stageOf, hon, if_true, EmulatorPoint.part]
    rcases r.session.emulatorState.link.toEmulator.receive with closed | ⟨message, toEmulator⟩
    · rfl
    · rfl
  | answering message =>
    simp only [emulatorMove, hstage, stageOf]
    exact ⟨_, rfl⟩
  | cycling =>
    simp only [emulatorMove, hstage, stageOf]
    exact ⟨_, rfl⟩
  | ticking =>
    simp only [emulatorMove, hstage, stageOf]
    exact ⟨_, rfl⟩

theorem emulatorSide_carriesOut (dice : Dice) (r : Race α) (point : EmulatorPoint) (now : α)
    (hat : (emulatorSide dice).StandsAt r point) :
    (emulatorSide dice).CarriesOut r now (point.part dice now r.session.emulatorState) := by
  obtain ⟨did, hmove⟩ := exists_emulatorPart dice r point now hat
  exact emulatorPart_carriesOut did (point.next_part_ne_between dice now _) hmove

theorem exists_moves_emulatorTurn (dice : Dice) (hat : r.emulatorAt = .listening)
    (cycleTime timerTime : α) :
    ∃ times : List α,
      let r' := r.run dice (times.map .emulator)
      let turn := r.session.emulatorTurn dice cycleTime timerTime
      r'.session = turn.state ∧ r'.emulatorAt = if goesOn turn then .listening else .ended := by
  unfold emulatorTurn Emulator.State.turn
  by_cases hrunning : r.session.emulator.running = true
  · obtain ⟨times, hsession, hstands⟩ := Side.reaches_emulatorStep
      (emulatorSide_carriesOut dice) ⟨hat, fun _ => hrunning⟩ cycleTime timerTime
    have hon : r.session.emulatorState.emulator.running = true := hrunning
    simp only [hon, if_true, goesOn_noteEmulatorEnd, goesOn_map, goesOn_settle_emulator]
    refine ⟨times, ?_⟩
    rw [run, List.foldl_map]
    exact ⟨hsession, hstands⟩
  · have hoff : r.session.emulatorState.emulator.running = false := Bool.eq_false_iff.mpr hrunning
    refine ⟨[cycleTime, cycleTime], ?_⟩
    simp only [List.map_cons, List.map_nil, run, List.foldl_cons, List.foldl_nil, move,
      emulatorMove, hat, hoff, Bool.false_eq_true, if_false]
    exact ⟨rfl, rfl⟩

variable {input : Option InputEvent} {now : α}

def presenterStageOf : PresenterPoint → PresenterStage
  | .between => .watching
  | .resuming => .resuming
  | .receiving => .receiving

def presenterSide (input : Option InputEvent) (now : α) :
    Side (Race α) Unit (Presenter.State α) PresenterPoint where
  move r _ := r.presenterMove input now
  state r := r.session.presenterState
  StandsAt r point := r.presenterAt = presenterStageOf point
  LeadsTo r result r' :=
    r'.session =
        (notePresenterEnd ((Presenter.State.settle result).map r.session.withPresenter)).state ∧
      r'.presenterAt = if goesOn result then .watching else .ended

theorem presenterPart_ends (next : PresenterStage) {result : Presenter.Result α}
    (hend : goesOn result = false) :
    (presenterSide input now).LeadsTo r result
      (((r.presenterPart next result).presenterMove input now).presenterMove input now) := by
  obtain ⟨hover, hstate⟩ := settle_presenter hend
  simp only [presenterSide]
  rw [notePresenterEnd_state (by rw [goesOn_map]; exact hover), state_map, hstate]
  simp only [presenterMove, presenterPart, hend, if_false, Bool.false_eq_true, and_true]
  rfl

theorem presenterPart_carriesOut {part : Part (Presenter.State α) PresenterPoint}
    (hmove : r.presenterMove input now =
      r.presenterPart (presenterStageOf (part.next.getD .between)) part.result) :
    (presenterSide input now).CarriesOut r () part := by
  obtain ⟨result, next⟩ := part
  unfold Side.CarriesOut
  rw [show (presenterSide input now).move r () = _ from hmove]
  cases result with
  | goOn p =>
    cases next with
    | none => exact ⟨[], rfl, rfl⟩
    | some point => exact ⟨rfl, rfl, fun _ _ => id⟩
  | stop p => exact ⟨[(), ()], presenterPart_ends _ rfl⟩
  | fail p cause => exact ⟨[(), ()], presenterPart_ends _ rfl⟩

theorem presenterSide_carriesOut (input : Option InputEvent) (now : α) (r : Race α)
    (point : PresenterPoint)
    (hat : (presenterSide input now).StandsAt r point) :
    (presenterSide input now).CarriesOut r () (point.part input now r.session.presenterState) := by
  refine presenterPart_carriesOut ?_
  have hstage : r.presenterAt = presenterStageOf point := hat
  cases point with
  | between =>
    unfold PresenterPoint.part
    by_cases hreset : input = some .reset
    · simp only [presenterMove, hstage, presenterStageOf, hreset, if_true]
      rfl
    · simp only [presenterMove, hstage, presenterStageOf, hreset, if_false]
      rfl
  | resuming =>
    simp only [presenterMove, hstage, presenterStageOf]
    rfl
  | receiving =>
    simp only [presenterMove, hstage, presenterStageOf]
    rfl

theorem exists_moves_presenterTurn (dice : Dice) (hat : r.presenterAt = .watching)
    (input : Option InputEvent) (now : α) :
    ∃ count : Nat,
      let r' := r.run dice (.replicate count (.presenter input now))
      let turn := r.session.presenterTurn input now
      r'.session = turn.state ∧ r'.presenterAt = if goesOn turn then .watching else .ended := by
  obtain ⟨moves, hsession, hstands⟩ := Side.reaches_presenterStep
    (presenterSide_carriesOut input now) (w := r) hat
  unfold presenterTurn Presenter.State.turn
  simp only [goesOn_notePresenterEnd, goesOn_map, goesOn_settle_presenter]
  refine ⟨moves.length, ?_⟩
  rw [run, ← List.map_const', List.foldl_map]
  exact ⟨hsession, hstands⟩

end SuperChip.Session.Race
