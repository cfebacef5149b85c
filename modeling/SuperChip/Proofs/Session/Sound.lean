import SuperChip.Proofs.Presenter.Step
import SuperChip.Proofs.Session.History

-- What every move keeps. The history and the channel to the screen together say what the emulation
-- side has reported, and everything else follows from where the end is: not reported yet, on its
-- way, or heard.
namespace SuperChip.Session

variable {α : Type}

structure Sound (r : Race α) : Prop extends r.Runs where
  orders : ∀ message ∈ r.session.link.toEmulator.pending, message.IsWhole
  answering : ∀ message, r.emulatorAt = .answering (some message) → message.IsWhole
  -- what is reported is heard in the same order
  reports : messages reported r.history =
    messages heard r.history ++ r.session.link.toScreen.pending
  calm : ∀ cause, .failed cause ∉ r.history
  quits : (messages ordered r.history).count (.control .quit) =
    if r.session.presenter.quitSent then 1 else 0
  toEmulator : r.session.link.toEmulator.closed = true → r.presenterAt.isOver = true
  toScreen : r.session.link.toScreen.closed = true →
    r.emulatorAt.isOver = true ∨ r.presenterAt.isOver = true
  concluding : Concluding r.history r.session.emulator.fault r.emulatorAt.isOver
  hearing : Hearing r.history r.session.presenter.fault r.presenterAt.isOver

section Invariant

variable {r : Race α}

theorem Sound.emulating (h : Sound r) (hat : r.emulatorAt.isOver = false) :
    r.session.emulator.fault = none ∧ ∀ message ∈ messages reported r.history, ¬ message.IsEnd := by
  have hconcluding := h.concluding
  rw [hat] at hconcluding
  exact hconcluding

theorem Sound.emulated (h : Sound r) (hat : r.emulatorAt.isOver = true) :
    Concluded r.history r.session.emulator.fault := by
  have hconcluding := h.concluding
  rw [hat] at hconcluding
  exact hconcluding

theorem Sound.presenting (h : Sound r) (hat : r.presenterAt.isOver = false) :
    r.session.presenter.fault = none ∧ ∀ message ∈ messages heard r.history, ¬ message.IsEnd := by
  have hhearing := h.hearing
  rw [hat] at hhearing
  exact hhearing

theorem Sound.presented (h : Sound r) (hat : r.presenterAt.isOver = true) :
    ∃ last, (messages heard r.history).getLast? = some last ∧ last.IsEnd ∧
      (last = .event .quitAck → r.session.presenter.fault = none) := by
  have hhearing := h.hearing
  rw [hat] at hhearing
  exact hhearing

theorem Sound.presenting_of_emulating (h : Sound r) (hat : r.emulatorAt.isOver = false) :
    r.presenterAt.isOver = false := by
  rw [Bool.eq_false_iff]
  intro hover
  obtain ⟨last, hlast, hend, -⟩ := h.presented hover
  have hheard : last ∈ messages heard r.history := List.mem_of_getLast? hlast
  have hreported : last ∈ messages reported r.history := by
    rw [h.reports]
    exact List.mem_append_left _ hheard
  exact (h.emulating hat).2 last hreported hend

theorem Sound.toScreen_open (h : Sound r) (hat : r.emulatorAt.isOver = false) :
    r.session.link.toScreen.closed = false := by
  rw [Bool.eq_false_iff]
  intro hclosed
  have hover := h.toScreen hclosed
  simp [hat, h.presenting_of_emulating hat] at hover

theorem Sound.toEmulator_open (h : Sound r) (hat : r.presenterAt.isOver = false) :
    r.session.link.toEmulator.closed = false := by
  rw [Bool.eq_false_iff]
  intro hclosed
  have hover := h.toEmulator hclosed
  simp [hat] at hover

-- The presentation side finds the channel closed and empty only after it has heard the end.
theorem Sound.screen_open_of_empty (h : Sound r) (hat : r.presenterAt.isOver = false)
    (hempty : r.session.link.toScreen.pending = []) : r.session.link.toScreen.closed = false := by
  rw [Bool.eq_false_iff]
  intro hclosed
  rcases h.toScreen hclosed with hover | hover
  · obtain ⟨last, hlast, hend⟩ := (h.emulated hover).exists_end
    rw [h.reports, hempty, List.append_nil] at hlast
    exact (h.presenting hat).2 last hlast hend
  · simp [hat] at hover

-- A part of the emulation side's turn keeps the session sound if the end is where it should be
-- after it.
theorem Sound.emulatorPart (h : Sound r) (hbegun : r.emulatorAt ≠ .starting)
    (hat : r.emulatorAt.isOver = false) {did : List Happening} {next : EmulatorStage}
    {result : Emulator.Result α} {news : List Event}
    (kept : Emulator.State.Kept r.session.emulatorState news (emulatorBlamed result))
    (hcalm : failures result = []) (hwork : ∀ x ∈ did, x.IsWork) (hnext : next.isOver = false)
    (hwhole : ∀ message, next = .answering (some message) → message.IsWhole)
    (hends : Concluding (r.history ++ workOf did news) (emulatorBlamed result).emulator.fault
      (!goesOn result)) :
    Sound (r.emulatorPart did next result) := by
  have hadds := emulatorPart_adds r next hwork kept
  rw [hcalm, List.append_nil] at hadds
  have hordered : messages ordered (workOf did news) = [] := ordered_workOf hwork news
  constructor
  case toRuns => exact h.toRuns.emulatorPart hbegun hat did next kept
  case orders => exact hadds.forall_toEmulator h.orders (by simp [hordered])
  case answering =>
    simp only [Race.emulatorPart]
    split
    · exact hwhole
    · intro message hended
      cases hended
  case reports => exact hadds.reports h.reports
  case calm => exact hadds.failed_notMem h.calm (failed_notMem_workOf hwork news)
  case quits =>
    rw [hadds.messages_eq, hordered, List.append_nil]
    exact h.quits
  case toEmulator =>
    rw [hadds.emulatorClosed]
    exact h.toEmulator
  case toScreen =>
    rw [hadds.screenClosed, h.toScreen_open hat]
    exact fun hclosed => absurd hclosed Bool.false_ne_true
  case concluding =>
    rw [hadds.history, isOver_emulatorPart r did hnext]
    exact hends
  case hearing =>
    rw [hadds.history]
    exact h.hearing.append_workOf hwork news

theorem Sound.proceeds (h : Sound r) (hbegun : r.emulatorAt ≠ .starting)
    (hat : r.emulatorAt.isOver = false) {did : List Happening} {next : EmulatorStage}
    {fault : Option Fault} {result : Emulator.Result α}
    (hresult : Emulator.State.Proceeds r.session.emulatorState fault result)
    (hwork : ∀ x ∈ did, x.IsWork)
    (hexecuted : ∀ cause ∈ fault, did = [.executed (some cause)])
    (hnext : next.isOver = false) (hwhole : ∀ message, next ≠ .answering (some message)) :
    Sound (r.emulatorPart did next result) := by
  obtain ⟨hfault, hplain⟩ := h.emulating hat
  have hwhole' : ∀ message, next = .answering (some message) → message.IsWhole :=
    fun message hm => absurd hm (hwhole message)
  cases hresult with
  | goOn kept same plain =>
    refine h.emulatorPart hbegun hat kept rfl hwork hnext hwhole' ?_
    exact .append_workOf ⟨same.trans hfault, hplain⟩ hwork plain
  | quit kept same =>
    refine h.emulatorPart hbegun hat kept rfl hwork hnext hwhole' (concluded_workOf hwork hplain ?_)
    rw [show (emulatorBlamed (.stop _)).emulator.fault = none from same.trans hfault]
    exact .quit _
  | fault kept noted =>
    refine h.emulatorPart hbegun hat kept rfl hwork hnext hwhole' (concluded_workOf hwork hplain ?_)
    rw [show (emulatorBlamed (.stop _)).emulator.fault = _ from noted, hexecuted _ rfl]
    exact .fault _ _ _

theorem Sound.emulator_begins (h : Sound r) (hat : r.emulatorAt.isOver = false) :
    Sound { r with session := r.session.beginEmulator, emulatorAt := .listening } :=
  { h with
    machine := h.machine
    running := fun _ _ => rfl
    answering := nofun
    toScreen := fun hshut => absurd hshut (Bool.eq_false_iff.mp (h.toScreen_open hat))
    concluding := h.emulating hat }

theorem Sound.emulator_ends (h : Sound r) (hat : r.emulatorAt.isOver = true) :
    Sound { r with session := r.session.finishEmulator, emulatorAt := .ended } :=
  { h with
    machine := h.machine
    running := nofun
    answering := nofun
    toScreen := fun _ => .inl rfl
    concluding := h.emulated hat }

theorem Sound.listening (h : Sound r) (hbegun : r.emulatorAt ≠ .starting)
    (hat : r.emulatorAt.isOver = false) {message : Option Message} {toEmulator : Channel Message}
    (hreceive : r.session.link.toEmulator.receive = .ok (message, toEmulator)) :
    Sound (r.emulatorPart [] (.answering message) (.goOn { r.session.emulatorState with
      link := { r.session.emulatorState.link with toEmulator } })) := by
  obtain ⟨hclosed, hpending, hmessage⟩ := Channel.receive_ok hreceive
  have hnone : r.session.link.toScreen = r.session.link.toScreen.added [] :=
    (Channel.added_nil _).symm
  have kept : Emulator.State.Kept r.session.emulatorState []
      { r.session.emulatorState with link := { r.session.emulatorState.link with toEmulator } } :=
    ⟨h.machine, rfl, hnone, hclosed, hpending⟩
  refine h.emulatorPart hbegun hat kept rfl (by simp) rfl ?_
    (.append_workOf (h.emulating hat) nofun nofun)
  intro order horder
  exact h.orders order (hmessage order (EmulatorStage.answering.inj horder))

variable [Sub α] [LT α] [DecidableLT α]

theorem Sound.cycling (h : Sound r) (hbegun : r.emulatorAt ≠ .starting)
    (hat : r.emulatorAt.isOver = false) (dice : Dice) (now : α) {did : List Happening}
    (hdid : did = if r.session.emulatorState.cycleRuns now then
      [.executed (r.session.emulatorState.emulator.machine.cycle dice).2] else []) :
    Sound (r.emulatorPart did .ticking
      (r.session.emulatorState.whenCycleDue now (Emulator.State.cycle dice))) := by
  have hcycle := Emulator.State.whenCycleDue_proceeds (s := r.session.emulatorState) dice
    h.machine (h.toScreen_open hat) now
  by_cases hruns : r.session.emulatorState.cycleRuns now = true
  · rw [if_pos hruns] at hcycle hdid
    subst hdid
    refine h.proceeds hbegun hat hcycle (by simp [Happening.IsWork]) ?_ rfl (by simp)
    intro cause hcause
    rw [Option.mem_def.mp hcause]
  · rw [if_neg hruns] at hcycle hdid
    subst hdid
    exact h.proceeds hbegun hat hcycle (by simp) (by simp) rfl (by simp)

theorem Sound.ticking (h : Sound r) (hbegun : r.emulatorAt ≠ .starting)
    (hat : r.emulatorAt.isOver = false) (now : α) {did : List Happening}
    (hdid : did = if r.session.emulatorState.timerRuns now then [.ticked] else []) :
    Sound (r.emulatorPart did .listening
      (r.session.emulatorState.whenTimerDue now Emulator.State.tick)) := by
  have htick := Emulator.State.whenTimerDue_proceeds (s := r.session.emulatorState) h.machine
    (h.toScreen_open hat) now
  have hwork : ∀ x ∈ did, x.IsWork := by
    rw [hdid]
    split <;> simp [Happening.IsWork]
  exact h.proceeds hbegun hat htick hwork (by simp) rfl (by simp)

theorem sound_emulatorMove (dice : Dice) (now : α) (h : Sound r) :
    Sound (r.emulatorMove dice now) := by
  cases hstage : r.emulatorAt with
  | starting =>
    simp only [Race.emulatorMove, hstage]
    exact h.emulator_begins (by rw [hstage]; rfl)
  | listening =>
    have hat : r.emulatorAt.isOver = false := by rw [hstage]; rfl
    have hbegun : r.emulatorAt ≠ .starting := by simp [hstage]
    have hrunning : r.session.emulatorState.emulator.running = true := h.running hbegun hat
    have hopen := h.toEmulator_open (h.presenting_of_emulating hat)
    cases hreceive : r.session.link.toEmulator.receive with
    | error closed =>
      exact absurd (Channel.closed_of_receive_error hreceive) (Bool.eq_false_iff.mp hopen)
    | ok received =>
      have hsame : r.session.emulatorState.link.toEmulator.receive = .ok received := hreceive
      simp only [Race.emulatorMove, hstage, hrunning, if_true, hsame]
      exact h.listening hbegun hat hreceive
  | answering message =>
    have hat : r.emulatorAt.isOver = false := by rw [hstage]; rfl
    have hmessage : ∀ order ∈ message, order.IsWhole := by
      intro order horder
      exact h.answering order (by rw [hstage, Option.mem_def.mp horder])
    have hanswer := Emulator.State.answer_proceeds (s := r.session.emulatorState) h.machine
      (h.toScreen_open hat) hmessage
    simp only [Race.emulatorMove, hstage]
    exact h.proceeds (by simp [hstage]) hat hanswer (by simp) (by simp) rfl (by simp)
  | cycling =>
    simp only [Race.emulatorMove, hstage]
    exact h.cycling (by simp [hstage]) (by rw [hstage]; rfl) dice now rfl
  | ticking =>
    simp only [Race.emulatorMove, hstage]
    exact h.ticking (by simp [hstage]) (by rw [hstage]; rfl) now rfl
  | closing =>
    simp only [Race.emulatorMove, hstage]
    exact h.emulator_ends (by rw [hstage]; rfl)
  | ended =>
    simp only [Race.emulatorMove, hstage]
    exact h

omit [Sub α] [LT α] [DecidableLT α]

-- The same for a part of the presentation side's turn, which may send orders.
theorem Sound.presenterPart (h : Sound r) (hat : r.presenterAt.isOver = false)
    {next : PresenterStage} {result : Presenter.Result α} (orders : List Control)
    (news : List Message)
    (hemulator : (presenterBlamed result).link.toEmulator =
      r.session.link.toEmulator.added (orders.map .control))
    (hclosed : (presenterBlamed result).link.toScreen.closed = r.session.link.toScreen.closed)
    (hnews : r.session.link.toScreen.pending =
      news ++ (presenterBlamed result).link.toScreen.pending)
    (hcalm : failures result = []) (hnext : next.isOver = false)
    (hwhole : ∀ order ∈ orders, (Message.control order).IsWhole)
    (hquits : (messages ordered r.history).count (.control .quit) +
        (orders.map Message.control).count (.control .quit) =
      if (presenterBlamed result).presenter.quitSent then 1 else 0)
    (hends : Hearing (r.history ++ exchangeOf orders news) (presenterBlamed result).presenter.fault
      (!goesOn result)) :
    Sound (r.presenterPart next result) := by
  have hadds := presenterPart_adds r next hemulator hclosed hnews
  rw [hcalm, List.append_nil] at hadds
  have hordered : messages ordered (exchangeOf orders news) = orders.map .control :=
    ordered_exchangeOf orders news
  constructor
  case toRuns => exact ⟨h.machine, h.running⟩
  case orders =>
    refine hadds.forall_toEmulator h.orders ?_
    rw [hordered]
    exact List.forall_mem_map.mpr hwhole
  case answering => exact h.answering
  case reports => exact hadds.reports h.reports
  case calm => exact hadds.failed_notMem h.calm (failed_notMem_exchangeOf orders news)
  case quits =>
    rw [hadds.messages_eq, hordered, List.count_append]
    exact hquits
  case toEmulator =>
    rw [hadds.emulatorClosed, h.toEmulator_open hat]
    exact nofun
  case toScreen =>
    rw [hadds.screenClosed]
    exact fun hshut => .inl ((h.toScreen hshut).resolve_right (by simp [hat]))
  case concluding =>
    rw [hadds.history]
    exact h.concluding.append_exchangeOf orders news
  case hearing =>
    rw [hadds.history, isOver_presenterPart r hnext]
    exact hends

-- Quitting is ordered only by the first input that asks for it.
theorem count_quit_orders (paused quitSent : Bool) (input : Option InputEvent) :
    (if quitSent then 1 else 0) +
      ((Presenter.orders paused quitSent input).map Message.control).count (.control .quit) =
        if Presenter.quitAfter quitSent input then 1 else 0 := by
  rcases input with _ | event
  · rfl
  · cases event with
    | quit => cases quitSent <;> rfl
    | togglePause => rfl
    | reset => rfl
    | keypad held => cases paused <;> rfl
    | other => rfl

end Invariant

def InputIsWhole (input : Option InputEvent) : Prop :=
  ∀ held, input = some (.keypad held) → 16 ≤ held.length

theorem isWhole_orders {paused quitSent : Bool} {input : Option InputEvent}
    (hinput : InputIsWhole input) :
    ∀ order ∈ Presenter.orders paused quitSent input, (Message.control order).IsWhole := by
  rintro order horder held ⟨⟩
  rcases input with _ | event
  · cases horder
  · cases event with
    | keypad keys =>
      cases paused with
      | true => cases horder
      | false =>
        obtain rfl : keys = held := (by simpa [Presenter.orders] using horder : held = keys).symm
        exact hinput keys rfl
    | quit => cases quitSent <;> simp [Presenter.orders] at horder
    | togglePause => simp [Presenter.orders] at horder
    | reset => simp [Presenter.orders] at horder
    | other => cases horder

section Invariant

variable {r : Race α}

theorem Sound.presenter_begins (h : Sound r) (hat : r.presenterAt.isOver = false) :
    Sound { r with session := r.session.beginPresenter, presenterAt := .watching } :=
  { h with
    machine := h.machine
    toEmulator := fun hshut => absurd hshut (Bool.eq_false_iff.mp (h.toEmulator_open hat))
    toScreen := fun hshut => .inl ((h.toScreen hshut).resolve_right (by simp [hat]))
    hearing := h.presenting hat }

theorem Sound.presenter_closes (h : Sound r) (hat : r.presenterAt.isOver = true) :
    Sound { r with
      session.link.toEmulator := r.session.link.toEmulator.close
      presenterAt := .leaving } :=
  { h with
    machine := h.machine
    toEmulator := fun _ => rfl
    toScreen := fun _ => .inr rfl
    hearing := h.presented hat }

theorem Sound.presenter_ends (h : Sound r) (hat : r.presenterAt.isOver = true) :
    Sound { r with session := r.session.finishPresenter, presenterAt := .ended } :=
  { h with
    machine := h.machine
    toEmulator := fun _ => rfl
    toScreen := fun _ => .inr rfl
    hearing := h.presented hat }

-- An order that is sent apart from the others, as a reset is.
theorem Sound.ordering (h : Sound r) (hat : r.presenterAt.isOver = false) (order : Control)
    (hwhole : (Message.control order).IsWhole) (hquit : order ≠ .quit) {next : PresenterStage}
    {p : Presenter.State α} (hnext : next.isOver = false) (hlink : p.link = r.session.link)
    (hpresenter : p.presenter = { r.session.presenter with paused := p.presenter.paused }) :
    Sound (r.presenterPart next (p.send order)) := by
  have hopen : p.link.toEmulator.closed = false := by
    rw [hlink]
    exact h.toEmulator_open hat
  rw [Presenter.State.send_of_open hopen]
  refine h.presenterPart hat [order] [] ?_ ?_ ?_ rfl hnext ?_ ?_ ?_
  · exact congrArg (fun link => link.toEmulator.added [.control order]) hlink
  · exact congrArg (fun link => link.toScreen.closed) hlink
  · exact congrArg (fun link => link.toScreen.pending) hlink.symm
  · intro order' horder
    rw [List.mem_singleton.mp horder]
    exact hwhole
  · have hnone : ([order].map Message.control).count (.control .quit) = 0 := by
      simp [List.count_eq_zero, hquit.symm]
    rw [hnone, h.quits]
    have hquitSent := congrArg Presenter.quitSent hpresenter
    exact congrArg (fun q => if q = true then 1 else 0) hquitSent.symm
  · have hfault := (congrArg Presenter.fault hpresenter).trans (h.presenting hat).1
    exact .append_exchangeOf ⟨hfault, (h.presenting hat).2⟩ [order] nofun

theorem Sound.watching (h : Sound r) (hat : r.presenterAt.isOver = false)
    {input : Option InputEvent} (hinput : InputIsWhole input) :
    Sound (r.presenterPart .receiving (r.session.presenterState.heedInput input)) := by
  rw [Presenter.State.heedInput_of_open (h.toEmulator_open hat)]
  refine h.presenterPart hat _ [] rfl rfl rfl rfl rfl (isWhole_orders hinput) ?_
    (.append_exchangeOf (h.presenting hat) _ nofun)
  rw [h.quits]
  exact count_quit_orders _ _ _

theorem taken_pending {message : Message} {rest : List Message}
    (hpending : r.session.link.toScreen.pending = message :: rest) :
    r.session.link.toScreen.pending =
      [message] ++ r.session.presenterState.taken.link.toScreen.pending := by
  simp only [Presenter.State.taken, presenterState, hpending, List.tail_cons,
    List.singleton_append]

-- The loop stops at the end, and at nothing else that it hears.
theorem Sound.hears (h : Sound r) (hat : r.presenterAt.isOver = false) {message : Message}
    {rest : List Message} (hpending : r.session.link.toScreen.pending = message :: rest)
    {result : Presenter.Result α}
    (hlink : (presenterBlamed result).link = r.session.presenterState.taken.link)
    (hquit : (presenterBlamed result).presenter.quitSent = r.session.presenter.quitSent)
    (hcalm : failures result = [])
    (hstands : goesOn result = true ∧ (presenterBlamed result).presenter.fault = none ∧
        ¬ message.IsEnd ∨
      goesOn result = false ∧ message.IsEnd ∧
        (message = .event .quitAck → (presenterBlamed result).presenter.fault = none)) :
    Sound (r.presenterPart .watching result) := by
  refine h.presenterPart hat [] [message] ?_ ?_ ?_ hcalm rfl nofun ?_ ?_
  · rw [hlink]
    exact (Channel.added_nil _).symm
  · rw [hlink]
    rfl
  · rw [hlink]
    exact taken_pending hpending
  · rw [hquit]
    exact h.quits
  · rcases hstands with ⟨hgoes, hfault, hplain⟩ | ⟨hstop, hend, hfault⟩
    · rw [hgoes]
      exact .append_exchangeOf ⟨hfault, (h.presenting hat).2⟩ [] (by simpa using hplain)
    · rw [hstop]
      exact hearing_of_end r.history [] hend hfault

variable [Sub α] [LT α] [DecidableLT α]

theorem Sound.receiving (h : Sound r) (hat : r.presenterAt.isOver = false) (now : α) :
    Sound (r.presenterPart .watching (r.session.presenterState.receive now)) := by
  obtain ⟨hfault, -⟩ := h.presenting hat
  rcases hpending : r.session.link.toScreen.pending with _ | ⟨message, rest⟩
  · rw [Presenter.State.receive_of_nil (by exact hpending) (h.screen_open_of_empty hat hpending)]
    exact h.presenterPart hat [] [] (Channel.added_nil _).symm rfl rfl rfl rfl nofun h.quits
      (.append_exchangeOf (h.presenting hat) [] nofun)
  · by_cases hevent : ∃ event, message = .event event
    · obtain ⟨event, rfl⟩ := hevent
      rw [Presenter.State.receive_of_event (by exact hpending)]
      cases event with
      | draw mode frame =>
        have hpresenter :=
          Presenter.State.refresh_presenter r.session.presenterState.taken now mode frame
        have hquit := congrArg Presenter.quitSent hpresenter
        have hcleared := (congrArg Presenter.fault hpresenter).trans hfault
        exact h.hears hat hpending (Presenter.State.refresh_link _ now mode frame) hquit rfl
          (.inl ⟨rfl, hcleared, id⟩)
      | beep on => exact h.hears hat hpending rfl rfl rfl (.inl ⟨rfl, hfault, id⟩)
      | quitAck =>
        exact h.hears hat hpending rfl rfl rfl (.inr ⟨rfl, trivial, fun _ => hfault⟩)
      | fault reason => exact h.hears hat hpending rfl rfl rfl (.inr ⟨rfl, trivial, nofun⟩)
    · rw [Presenter.State.receive_of_other (by exact hpending) fun event he => hevent ⟨event, he⟩]
      refine h.hears hat hpending rfl rfl rfl (.inl ⟨rfl, hfault, ?_⟩)
      cases message with
      | event event => exact absurd ⟨event, rfl⟩ hevent
      | control order => exact id
      | text line => exact id

theorem sound_presenterMove {input : Option InputEvent} (hinput : InputIsWhole input) (now : α)
    (h : Sound r) : Sound (r.presenterMove input now) := by
  cases hstage : r.presenterAt with
  | starting =>
    simp only [Race.presenterMove, hstage]
    exact h.presenter_begins (by rw [hstage]; rfl)
  | watching =>
    have hat : r.presenterAt.isOver = false := by rw [hstage]; rfl
    by_cases hreset : input = some .reset
    · subst hreset
      simp only [Race.presenterMove, hstage]
      exact h.ordering hat .reset (by simp [Message.IsWhole]) (by simp) rfl rfl rfl
    · have hmove : r.presenterMove input now =
          r.presenterPart .receiving (r.session.presenterState.heedInput input) := by
        simp only [Race.presenterMove, hstage]
      rw [hmove]
      exact h.watching hat hinput
  | resuming =>
    simp only [Race.presenterMove, hstage]
    exact h.ordering (by rw [hstage]; rfl) (.pause false) (by simp [Message.IsWhole]) (by simp)
      rfl rfl rfl
  | receiving =>
    simp only [Race.presenterMove, hstage]
    exact h.receiving (by rw [hstage]; rfl) now
  | closing =>
    simp only [Race.presenterMove, hstage]
    exact h.presenter_closes (by rw [hstage]; rfl)
  | leaving =>
    simp only [Race.presenterMove, hstage]
    exact h.presenter_ends (by rw [hstage]; rfl)
  | ended =>
    simp only [Race.presenterMove, hstage]
    exact h

-- What is promised of a move: its input has the whole keypad.
def Move.IsWhole : Move α → Prop
  | .emulator _ => True
  | .presenter input _ => InputIsWhole input

theorem sound_run (dice : Dice) (h : Sound r) (moves : List (Move α))
    (hmoves : ∀ move ∈ moves, move.IsWhole) : Sound (r.run dice moves) := by
  induction moves generalizing r with
  | nil => exact h
  | cons move rest ih =>
    have hrest : ∀ move ∈ rest, move.IsWhole := fun move hm =>
      hmoves move (List.mem_cons_of_mem _ hm)
    refine ih ?_ hrest
    cases move with
    | emulator now => exact sound_emulatorMove dice now h
    | presenter input now =>
      exact sound_presenterMove (hmoves (.presenter input now) List.mem_cons_self) now h

omit [Sub α] [LT α] [DecidableLT α] in
theorem sound_started {machine : Machine} (hm : machine.WellFormed)
    (cycleRate timerRate refreshRate : RateLimiter α) :
    Sound (.started machine cycleRate timerRate refreshRate) where
  machine := hm
  running := fun hbegun => absurd rfl hbegun
  orders := nofun
  answering := nofun
  reports := rfl
  calm := nofun
  quits := rfl
  toEmulator := nofun
  toScreen := nofun
  concluding := ⟨rfl, nofun⟩
  hearing := ⟨rfl, nofun⟩

end Invariant

end SuperChip.Session
