import SuperChip.Proofs.Session.Interleaving

-- How one side of a session takes a turn in parts. What the other side is up to in the meantime,
-- and what is written down along the way, does not matter.
namespace SuperChip.Session

-- The points between the parts of a step, at which a side can be held up.
inductive EmulatorPoint where
  | between
  | answering (message : Option Message)
  | cycling
  | ticking
  deriving DecidableEq

inductive PresenterPoint where
  | between
  | resuming
  | receiving
  deriving DecidableEq

theorem state_map {σ τ : Type} (f : σ → τ) (t : Turn σ Failure) :
    (t.map f).state = f t.state := by
  cases t <;> rfl

theorem goesOn_map {σ τ : Type} (f : σ → τ) (t : Turn σ Failure) :
    goesOn (t.map f) = goesOn t := by
  cases t <;> rfl

theorem andThen_assoc {σ : Type} (t : Turn σ Failure) (f g : σ → Turn σ Failure) :
    (t.andThen f).andThen g = t.andThen fun s => (f s).andThen g := by
  cases t <;> rfl

-- A side of something larger. Its loop has a state, stands at some point of its turn, and moves.
-- What the turn has led to is told from where it began and from its result.
structure Side (ω μ σ ι : Type) where
  move : ω → μ → ω
  state : ω → σ
  StandsAt : ω → ι → Prop
  LeadsTo : ω → Turn σ Failure → ω → Prop

-- A part of a turn: what it makes of the state, and the point that it goes on to. The last part
-- goes on to none.
structure Part (σ ι : Type) where
  result : Turn σ Failure
  next : Option ι

namespace Side

section Parts

variable {ω μ σ ι : Type} {d : Side ω μ σ ι} {w : ω} {now : μ} {result : Turn σ Failure}

-- When only this side moves, the rest of its turn has this result.
def Reaches (d : Side ω μ σ ι) (w : ω) (result : Turn σ Failure) : Prop :=
  ∃ moves : List μ, d.LeadsTo w result (moves.foldl d.move w)

-- The next move is this part of the turn. Where the turn does not go on from there, the side has
-- come to its end, or does so by itself.
def CarriesOut (d : Side ω μ σ ι) (w : ω) (now : μ) (part : Part σ ι) : Prop :=
  let w' := d.move w now
  match part with
  | ⟨.goOn s, some point⟩ =>
    d.StandsAt w' point ∧ d.state w' = s ∧ ∀ rest w'', d.LeadsTo w' rest w'' → d.LeadsTo w rest w''
  | ⟨result, _⟩ => ∃ moves : List μ, d.LeadsTo w result (moves.foldl d.move w')

theorem Reaches.of_move
    (h : ∃ moves : List μ, d.LeadsTo w result (moves.foldl d.move (d.move w now))) :
    d.Reaches w result := by
  obtain ⟨moves, hleads⟩ := h
  exact ⟨now :: moves, hleads⟩

theorem Reaches.last (h : d.CarriesOut w now ⟨result, none⟩) : d.Reaches w result := by
  cases result with
  | goOn s => exact .of_move h
  | stop s => exact .of_move h
  | fail s cause => exact .of_move h

theorem Reaches.andThen {point : ι} {f : σ → Turn σ Failure}
    (h : d.CarriesOut w now ⟨result, some point⟩)
    (hrest : ∀ w', d.StandsAt w' point → d.Reaches w' (f (d.state w'))) :
    d.Reaches w (result.andThen f) := by
  cases result with
  | goOn s =>
    obtain ⟨hat, rfl, hcarry⟩ := h
    obtain ⟨moves, hleads⟩ := hrest _ hat
    exact ⟨now :: moves, hcarry _ _ hleads⟩
  | stop s => exact .of_move h
  | fail s cause => exact .of_move h

end Parts

end Side

variable {ω α : Type} [Sub α] [LT α] [DecidableLT α]

-- A step of the emulation loop takes a message, answers it, and does what is due.
def EmulatorPoint.part (dice : Dice) (now : α) (e : Emulator.State α) :
    EmulatorPoint → Part (Emulator.State α) EmulatorPoint
  | .between =>
    match e.link.toEmulator.receive with
    | .error closed => ⟨.fail e (.channel closed), none⟩
    | .ok (message, toEmulator) =>
      ⟨.goOn { e with link := { e.link with toEmulator } }, some (.answering message)⟩
  | .answering message => ⟨e.answer message, some .cycling⟩
  | .cycling => ⟨e.whenCycleDue now (Emulator.State.cycle dice), some .ticking⟩
  | .ticking => ⟨e.whenTimerDue now Emulator.State.tick, none⟩

theorem EmulatorPoint.next_part_ne_between (dice : Dice) (now : α) (e : Emulator.State α)
    (point : EmulatorPoint) : (point.part dice now e).next ≠ some .between := by
  cases point with
  | between =>
    simp only [EmulatorPoint.part]
    split <;> simp
  | answering message => simp [EmulatorPoint.part]
  | cycling => simp [EmulatorPoint.part]
  | ticking => simp [EmulatorPoint.part]

-- A step of the presentation loop heeds an input, for a reset in two parts, and looks for news.
def PresenterPoint.part (input : Option InputEvent) (now : α) (p : Presenter.State α) :
    PresenterPoint → Part (Presenter.State α) PresenterPoint
  | .between =>
    if input = some .reset then ⟨p.send .reset, some .resuming⟩
    else ⟨p.heedInput input, some .receiving⟩
  | .resuming => ⟨(p.pauseSetTo false).send (.pause false), some .receiving⟩
  | .receiving => ⟨p.receive now, none⟩

namespace Side

section Emulation

variable {d : Side ω α (Emulator.State α) EmulatorPoint} {w : ω} {dice : Dice}

-- Whoever carries out the parts takes the step.
theorem reaches_emulatorStep
    (hparts : ∀ w point now, d.StandsAt w point →
      d.CarriesOut w now (point.part dice now (d.state w)))
    (hat : d.StandsAt w .between) (cycleTime timerTime : α) :
    d.Reaches w ((d.state w).step dice cycleTime timerTime) := by
  have hticking : ∀ w, d.StandsAt w .ticking →
      d.Reaches w ((d.state w).whenTimerDue timerTime Emulator.State.tick) :=
    fun w hw => .last (hparts w .ticking timerTime hw)
  have hcycling : ∀ w, d.StandsAt w .cycling →
      d.Reaches w (((d.state w).whenCycleDue cycleTime (Emulator.State.cycle dice)).andThen
        fun e => e.whenTimerDue timerTime Emulator.State.tick) :=
    fun w hw => .andThen (hparts w .cycling cycleTime hw) hticking
  have hanswering : ∀ message w, d.StandsAt w (.answering message) →
      d.Reaches w ((((d.state w).answer message).andThen fun e =>
        e.whenCycleDue cycleTime (Emulator.State.cycle dice)).andThen fun e =>
          e.whenTimerDue timerTime Emulator.State.tick) := by
    intro message w hw
    rw [andThen_assoc]
    exact .andThen (hparts w (.answering message) cycleTime hw) hcycling
  have hpart := hparts w .between cycleTime hat
  unfold Emulator.State.step
  rw [Emulator.State.receive_eq]
  unfold EmulatorPoint.part at hpart
  rcases hreceive : (d.state w).link.toEmulator.receive with closed | ⟨message, toEmulator⟩
  · rw [hreceive] at hpart
    exact .last hpart
  · rw [hreceive] at hpart
    exact .andThen hpart (f := fun e => ((e.answer message).andThen fun e =>
      e.whenCycleDue cycleTime (Emulator.State.cycle dice)).andThen fun e =>
        e.whenTimerDue timerTime Emulator.State.tick) (hanswering message)

end Emulation

section Presentation

variable {d : Side ω Unit (Presenter.State α) PresenterPoint} {w : ω}
  {input : Option InputEvent} {now : α}

theorem reaches_presenterStep
    (hparts : ∀ w point, d.StandsAt w point →
      d.CarriesOut w () (point.part input now (d.state w)))
    (hat : d.StandsAt w .between) : d.Reaches w ((d.state w).step input now) := by
  have hreceiving : ∀ w, d.StandsAt w .receiving → d.Reaches w ((d.state w).receive now) :=
    fun w hw => .last (hparts w .receiving hw)
  have hresuming : ∀ w, d.StandsAt w .resuming →
      d.Reaches w ((((d.state w).pauseSetTo false).send (.pause false)).andThen
        (Presenter.State.receive now)) :=
    fun w hw => .andThen (hparts w .resuming hw) hreceiving
  have hpart := hparts w .between hat
  unfold Presenter.State.step
  unfold PresenterPoint.part at hpart
  by_cases hreset : input = some .reset
  · rw [if_pos hreset] at hpart
    subst hreset
    simp only [Presenter.State.heedInput, Presenter.State.heed]
    rw [andThen_assoc]
    exact .andThen hpart hresuming
  · rw [if_neg hreset] at hpart
    exact .andThen hpart hreceiving

end Presentation

end Side

end SuperChip.Session
