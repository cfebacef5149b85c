import SuperChip.Proofs.Session.Overlap

-- How the two sides agree while orders are on their way: nothing that was sent is lost, repeated or
-- overtaken, and the pause of one side is what the other has yet to hear.
namespace SuperChip

-- What the newest of some messages sets, if any of them does.
def latest {β : Type} (pick : Message → Option β) (initial : β) (messages : List Message) : β :=
  (messages.filterMap pick).getLast?.getD initial

theorem latest_append {β : Type} (pick : Message → Option β) (initial : β)
    (earlier later : List Message) :
    latest pick initial (earlier ++ later) = latest pick (latest pick initial earlier) later := by
  unfold latest
  rw [List.filterMap_append, List.getLast?_append]
  cases (later.filterMap pick).getLast? with
  | none => rfl
  | some value => rfl

def Message.pause? : Message → Option Bool
  | .control (.pause paused) => some paused
  | _ => none

theorem Emulator.afterOrder_paused {α : Type} (e : Emulator α) (message : Option Message) :
    (e.afterOrder message).paused = latest Message.pause? e.paused message.toList := by
  rcases message with _ | ⟨order | event | text⟩
  · rfl
  · cases order <;> rfl
  · rfl
  · rfl

theorem Presenter.pausedAfter_eq (paused quitSent : Bool) (input : Option InputEvent) :
    pausedAfter paused input =
      latest Message.pause? paused ((orders paused quitSent input).map .control) := by
  rcases input with _ | event
  · rfl
  · cases event with
    | quit => cases quitSent <;> rfl
    | togglePause => rfl
    | reset => rfl
    | keypad held => cases paused <;> rfl
    | other => rfl

namespace Session.Overlap

variable {α : Type} {w : Overlap α}

-- The messages acted on, oldest first.
def obeyedOrders (w : Overlap α) : List Message := w.obeyed.map Prod.snd

structure Agreed (w : Overlap α) : Prop where
  accounted : w.obeyedOrders ++ w.waiting = w.ordered
  earlier : ∀ step ∈ w.obeyed.map Prod.fst, step < w.firstUnspent
  increasing : (w.obeyed.map Prod.fst).Pairwise (· < ·)
  emulator : w.session.emulator.paused = latest Message.pause? false w.obeyedOrders
  presenter : w.session.presenter.paused = latest Message.pause? false w.ordered

theorem started_agreed (machine : Machine) (cycleRate timerRate refreshRate : RateLimiter α) :
    Agreed (started machine cycleRate timerRate refreshRate) := by
  refine ⟨rfl, ?_, .nil, rfl, rfl⟩
  intro step hstep
  cases hstep

theorem obeyedOrders_of_idled {w' : Overlap α} (hidled : Idled w w') :
    w'.obeyedOrders = w.obeyedOrders := congrArg (List.map Prod.snd) hidled.obeyed

theorem Agreed.idled {w' : Overlap α} (h : Agreed w) (hidled : Idled w w')
    (hsame : SamePresenter w w') : Agreed w' := by
  have hobeyed := obeyedOrders_of_idled hidled
  refine ⟨?_, ?_, ?_, ?_, ?_⟩
  · rw [hobeyed, hidled.waiting, hsame.ordered]
    exact h.accounted
  · rw [hidled.obeyed, hidled.firstUnspent]
    exact h.earlier
  · rw [hidled.obeyed]
    exact h.increasing
  · rw [hidled.paused, hobeyed]
    exact h.emulator
  · rw [hsame.presenter, hsame.ordered]
    exact h.presenter

theorem obeyedOrders_of_acted {w' : Overlap α} {message : Option Message}
    (hacted : Acted w message w') : w'.obeyedOrders = w.obeyedOrders ++ message.toList := by
  have hnew : (message.toList.map (w.firstUnspent, ·)).map Prod.snd = message.toList := by
    cases message <;> rfl
  rw [obeyedOrders, hacted.obeyed, List.map_append, hnew]
  rfl

theorem Agreed.acted {w' : Overlap α} {message : Option Message} (h : Agreed w)
    (hacted : Acted w message w') (hsame : SamePresenter w w') : Agreed w' := by
  have hobeyed := obeyedOrders_of_acted hacted
  have hsteps : w'.obeyed.map Prod.fst =
      w.obeyed.map Prod.fst ++ message.toList.map fun _ => w.firstUnspent := by
    rw [hacted.obeyed, List.map_append, List.map_map]
    rfl
  have hnew : ∀ step ∈ message.toList.map fun _ => w.firstUnspent, step = w.firstUnspent := by
    intro step hstep
    obtain ⟨-, -, rfl⟩ := List.mem_map.mp hstep
    rfl
  refine ⟨?_, ?_, ?_, ?_, ?_⟩
  · rw [hobeyed, List.append_assoc, ← hacted.waiting, hsame.ordered]
    exact h.accounted
  · intro step hstep
    rw [hsteps] at hstep
    rw [hacted.firstUnspent]
    rcases List.mem_append.mp hstep with hold | hlast
    · have hearlier := h.earlier step hold
      omega
    · have heq := hnew step hlast
      omega
  · rw [hsteps, List.pairwise_append]
    refine ⟨h.increasing, ?_, ?_⟩
    · cases message with
      | none => exact .nil
      | some order => exact List.pairwise_singleton _ _
    · intro step hold last hlast
      rw [hnew last hlast]
      exact h.earlier step hold
  · rw [hacted.emulator, Emulator.afterOrder_paused, h.emulator, hobeyed, latest_append]
  · rw [hsame.presenter, hsame.ordered]
    exact h.presenter

-- The pause that the presentation side is about to come to.
def pauseToCome (w : Overlap α) : Bool :=
  match w.presenterAt with
  | .resuming => false
  | _ => w.session.presenter.paused

-- What was sent is what the inputs ask for.
structure Heeded (w : Overlap α) : Prop where
  ordered : w.ordered ++ w.owed.map .control =
    (Presenter.ordersFor false false w.heeded).map .control
  paused : w.pauseToCome = w.heeded.foldl Presenter.pausedAfter false
  quitSent : w.session.presenter.quitSent = w.heeded.foldl Presenter.quitAfter false

variable [Sub α] [LT α] [DecidableLT α]

-- The pause of the presentation side is the one it has told last.
theorem paused_presenterMove (h : Open w) (input : Option InputEvent) (now : α) :
    (w.presenterMove input now).session.presenter.paused =
      latest Message.pause? w.session.presenter.paused ((w.tells input).map .control) := by
  rw [presenterMove_of_open h]
  unfold tells
  cases hat : w.presenterAt with
  | between =>
    by_cases hreset : input = some .reset
    · simp only [hreset, if_true]
      rfl
    · simp only [hreset, if_false]
      exact Presenter.pausedAfter_eq w.session.presenter.paused w.session.presenter.quitSent input
  | resuming => rfl
  | receiving => exact (Presenter.State.receive_keeps w.session.presenterState now).2.2.1

theorem Agreed.presenterMove (h : Agreed w) (hopen : Open w) (input : Option InputEvent) (now : α) :
    Agreed (w.presenterMove input now) := by
  have hsame := sameEmulator_presenterMove input now w
  have hordered := (presenterMove_tells hopen input now).2
  have hobeyed : (w.presenterMove input now).obeyedOrders = w.obeyedOrders :=
    congrArg (List.map Prod.snd) hsame.obeyed
  refine ⟨?_, ?_, ?_, ?_, ?_⟩
  · rw [hobeyed, waiting_presenterMove hopen, hordered, ← h.accounted, List.append_assoc]
  · rw [hsame.obeyed, firstUnspent, hsame.emulatorAt, hsame.begun]
    exact h.earlier
  · rw [hsame.obeyed]
    exact h.increasing
  · rw [hsame.emulator, hobeyed]
    exact h.emulator
  · rw [paused_presenterMove hopen, h.presenter, hordered, latest_append]

-- A step begins with one input, for which everything is sent or owed.
theorem presenterMove_heeds (hopen : Open w) (hat : w.presenterAt = .between)
    (input : Option InputEvent) (now : α) :
    let w' := w.presenterMove input now
    let p := w.session.presenter
    w'.heeded = w.heeded ++ [input] ∧
      w'.ordered ++ w'.owed.map .control =
        w.ordered ++ (Presenter.orders p.paused p.quitSent input).map .control ∧
      w'.pauseToCome = Presenter.pausedAfter p.paused input ∧
      w'.session.presenter.quitSent = Presenter.quitAfter p.quitSent input := by
  have hordered := (presenterMove_tells hopen input now).2
  simp only [tells, hat] at hordered
  rw [presenterMove_of_open hopen] at hordered ⊢
  by_cases hreset : input = some .reset
  · subst hreset
    simp only [hat, if_true] at hordered ⊢
    refine ⟨rfl, ?_, rfl, rfl⟩
    rw [hordered]
    exact List.append_assoc _ _ _
  · simp only [hat, hreset, if_false] at hordered ⊢
    refine ⟨rfl, ?_, rfl, rfl⟩
    rw [hordered]
    exact List.append_nil _

theorem Heeded.heeding (h : Heeded w) (hopen : Open w) (hat : w.presenterAt = .between)
    (input : Option InputEvent) (now : α) : Heeded (w.presenterMove input now) := by
  have hold : w.ordered = (Presenter.ordersFor false false w.heeded).map .control := by
    simpa [owed, hat] using h.ordered
  have hpaused : w.session.presenter.paused = w.heeded.foldl Presenter.pausedAfter false := by
    simpa [pauseToCome, hat] using h.paused
  obtain ⟨hheeded, hordered, hpause, hquitSent⟩ := presenterMove_heeds hopen hat input now
  refine ⟨?_, ?_, ?_⟩
  · rw [hordered, hheeded, Presenter.ordersFor_concat, ← hpaused, ← h.quitSent, List.map_append,
      ← hold]
  · rw [hpause, hheeded, List.foldl_concat, hpaused]
  · rw [hquitSent, hheeded, List.foldl_concat, h.quitSent]

theorem Heeded.presenterMove (h : Heeded w) (hopen : Open w) (input : Option InputEvent)
    (now : α) : Heeded (w.presenterMove input now) := by
  have hordered := (presenterMove_tells hopen input now).2
  cases hat : w.presenterAt with
  | between => exact h.heeding hopen hat input now
  | resuming =>
    have howed : w.owed = [.pause false] := by rw [owed, hat]
    have hpause : w.pauseToCome = false := by rw [pauseToCome, hat]
    simp only [tells, hat] at hordered
    rw [presenterMove_of_open hopen, hat] at hordered ⊢
    refine ⟨?_, hpause.symm.trans h.paused, h.quitSent⟩
    rw [hordered, ← howed]
    exact (List.append_nil _).trans h.ordered
  | receiving =>
    obtain ⟨-, -, hpaused, hquitSent⟩ :=
      Presenter.State.receive_keeps w.session.presenterState now
    have hnext : (w.presenterMove input now).presenterAt = .between := by
      simp only [Overlap.presenterMove, hat, presenterPart, ite_self]
    have hheeded : (w.presenterMove input now).heeded = w.heeded := by
      simp only [Overlap.presenterMove, hat]
      rfl
    simp only [tells, hat] at hordered
    refine ⟨?_, ?_, ?_⟩
    · rw [hordered, owed, hnext, hheeded, ← h.ordered, owed, hat]
      simp only [List.map_nil, List.append_nil]
    · rw [pauseToCome, hnext, hheeded, ← h.paused, pauseToCome, hat]
      rw [presenterMove_of_open hopen, hat]
      exact hpaused
    · rw [hheeded, ← h.quitSent, presenterMove_of_open hopen, hat]
      exact hquitSent

theorem Agreed.emulatorMove (h : Agreed w) (hopen : Open w) (dice : Dice) (now : α) :
    Agreed (w.emulatorMove dice now) := by
  have hsame := samePresenter_emulatorMove dice now w
  rcases emulatorMove_cases dice now hopen with hidled | ⟨message, hacted⟩
  · exact h.idled hidled hsame
  · exact h.acted hacted hsame

-- A message is written down in the move that acts on it.
theorem obeyed_emulatorMove (dice : Dice) (now : α) (w : Overlap α) :
    let w' := w.emulatorMove dice now
    w'.obeyed = w.obeyed ++ w.inHand.map (w.begun, ·) ∧
      ∀ message ∈ w.inHand,
        w'.session.emulator = w.session.emulator.afterOrder (some message) := by
  cases hat : w.emulatorAt with
  | between =>
    simp only [Overlap.emulatorMove, inHand, hat, List.map_nil, List.append_nil]
    split <;> exact ⟨rfl, fun _ hmem => absurd hmem List.not_mem_nil⟩
  | answering message =>
    rw [emulatorMove_answering hat, inHand, hat]
    refine ⟨rfl, ?_⟩
    intro order horder
    obtain rfl : message = some order := Option.mem_toList.mp horder
    exact Emulator.State.answer_emulator w.session.emulatorState (some order)
  | cycling =>
    rw [emulatorMove_cycling hat, inHand, hat]
    exact ⟨(List.append_nil _).symm, fun _ hmem => absurd hmem List.not_mem_nil⟩
  | ticking =>
    rw [emulatorMove_ticking hat, inHand, hat]
    exact ⟨(List.append_nil _).symm, fun _ hmem => absurd hmem List.not_mem_nil⟩

-- One of the moves finds the message in hand, in the step of this number, and leaves the emulator as
-- the message says.
def ActsOn (dice : Dice) (w : Overlap α) (moves : List (Move α)) (step : Nat)
    (message : Message) : Prop :=
  ∃ earlier now later, moves = earlier ++ .emulator now :: later ∧
    let before := w.run dice earlier
    before.begun = step ∧ before.emulatorAt = .answering (some message) ∧
      (before.emulatorMove dice now).session.emulator =
        before.session.emulator.afterOrder (some message)

theorem ActsOn.cons {dice : Dice} {move : Move α} {moves : List (Move α)} {step : Nat}
    {message : Message} (h : ActsOn dice (w.move dice move) moves step message) :
    ActsOn dice w (move :: moves) step message := by
  obtain ⟨earlier, now, later, rfl, hacts⟩ := h
  exact ⟨move :: earlier, now, later, rfl, hacts⟩

end Session.Overlap

end SuperChip
