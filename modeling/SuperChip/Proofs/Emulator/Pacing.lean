import SuperChip.Proofs.Emulator.Published

-- What a pause holds up, and what the rates of an emulator go by. In a pause a machine changes only
-- by what it is told, and the rates see nothing but the clock.
namespace SuperChip

-- What a message does to a machine, whoever passes it on.
def Machine.told (m : Machine) : Message → Machine
  | .control (.keys held) => { m with keys := held.take Emulator.keyCount }
  | .control .reset => m.reset
  | _ => m

namespace Emulator

variable {α : Type}

theorem afterOrder_machine (e : Emulator α) (message : Option Message) :
    (e.afterOrder message).machine = message.toList.foldl Machine.told e.machine := by
  rcases message with _ | ⟨order | event | text⟩
  · rfl
  · cases order <;> rfl
  · rfl
  · rfl

-- The two rates, which are what the last-fire times are a part of.
def rates (e : Emulator α) : RateLimiter α × RateLimiter α := (e.cycleRate, e.timerRate)

theorem afterOrder_rates (e : Emulator α) (message : Option Message) :
    (e.afterOrder message).rates = e.rates := by
  unfold afterOrder
  split <;> rfl

-- The readings of the clock that the turns go by, one for each rate.
def readings (happenings : List (Happening α)) : List (α × α) :=
  happenings.filterMap fun
    | .stepped cycleTime timerTime => some (cycleTime, timerTime)
    | .meddled _ => none

namespace State

variable {s t : State α}

-- The oldest message is acted on, whatever becomes of the turn.
theorem receive_emulator (s : State α) :
    s.receive.state.emulator = s.emulator.afterOrder s.link.toEmulator.pending.head? := by
  rw [receive_eq]
  rcases hreceive : s.link.toEmulator.receive with closed | ⟨message, toEmulator⟩
  · rw [(Channel.eq_of_receive_error hreceive).2]
    rfl
  · have hhead : s.link.toEmulator.pending.head? = message := Channel.head?_of_receive hreceive
    rw [hhead]
    exact answer_emulator _ message

theorem receive_toScreen (s : State α) :
    ∃ news : List Event, s.receive.state.link.toScreen = s.link.toScreen.added (news.map .event) ∧
      ∀ event ∈ news, event = .quitAck := by
  rw [receive_eq]
  rcases s.link.toEmulator.receive with closed | ⟨message, toEmulator⟩
  · exact (Sends.of_link (p := (· = .quitAck)) (s := s) rfl).toScreen
  · exact (answer_sends { s with link := { s.link with toEmulator } } message).toScreen

variable [Sub α] [LT α] [DecidableLT α]

-- Once there is a pause the rest of a turn only asks the rates.
theorem step_of_paused (dice : Dice) (cycleTime timerTime : α)
    (hpaused : s.receive.state.emulator.paused = true) :
    let t := (s.step dice cycleTime timerTime).state
    t.emulator.machine = s.receive.state.emulator.machine ∧ t.link = s.receive.state.link := by
  unfold step
  rcases hreceive : s.receive with u | u | ⟨u, cause⟩
  · rw [hreceive] at hpaused
    have hcycle : u.whenCycleDue cycleTime (cycle dice) = .goOn (u.cyclePolled cycleTime) := by
      rw [whenCycleDue_eq, cycleRuns, show u.emulator.paused = true from hpaused]
      simp only [Bool.not_true, Bool.and_false, Bool.false_eq_true, if_false]
    have htimer : (u.cyclePolled cycleTime).whenTimerDue timerTime tick =
        .goOn ((u.cyclePolled cycleTime).timerPolled timerTime) := by
      rw [whenTimerDue_eq, timerRuns,
        show (u.cyclePolled cycleTime).emulator.paused = true from hpaused]
      simp only [Bool.not_true, Bool.and_false, Bool.false_eq_true, if_false]
    rw [Turn.andThen_goOn, hcycle, Turn.andThen_goOn, htimer]
    exact ⟨rfl, rfl⟩
  · exact ⟨rfl, rfl⟩
  · exact ⟨rfl, rfl⟩

theorem whenCycleDue_rates (dice : Dice) (s : State α) (now : α) :
    (s.whenCycleDue now (cycle dice)).state.emulator.rates =
      ((s.emulator.cycleRate.poll now).1, s.emulator.timerRate) := by
  rw [whenCycleDue_eq]
  split
  · obtain ⟨redraw, fault, hemulator⟩ := cycle_emulator dice (s.cyclePolled now)
    rw [hemulator]
    rfl
  · rfl

theorem whenTimerDue_rates (s : State α) (now : α) :
    (s.whenTimerDue now tick).state.emulator.rates =
      (s.emulator.cycleRate, (s.emulator.timerRate.poll now).1) := by
  rw [whenTimerDue_eq]
  split
  · rw [tick_emulator]
    rfl
  · rfl

-- A turn that goes on has asked both rates, with no regard to what they were asked for.
theorem step_rates {dice : Dice} {cycleTime timerTime : α}
    (hstep : s.step dice cycleTime timerTime = .goOn t) :
    t.emulator.rates =
      ((s.emulator.cycleRate.poll cycleTime).1, (s.emulator.timerRate.poll timerTime).1) := by
  unfold step at hstep
  rcases hreceive : s.receive with u | u | ⟨u, cause⟩
  · have hu : u.emulator.rates = s.emulator.rates := by
      have hemulator := receive_emulator s
      rw [hreceive] at hemulator
      exact (congrArg rates hemulator).trans (afterOrder_rates _ _)
    rw [hreceive, Turn.andThen_goOn] at hstep
    have hcycle := whenCycleDue_rates dice u cycleTime
    rcases hdue : u.whenCycleDue cycleTime (cycle dice) with v | v | ⟨v, cause⟩
    · rw [hdue] at hstep hcycle
      have htimer := whenTimerDue_rates v timerTime
      rw [Turn.andThen_goOn] at hstep
      rw [hstep] at htimer
      obtain ⟨hcycleRate, htimerRate⟩ := Prod.mk.inj hcycle
      obtain ⟨hcycleSame, htimerSame⟩ := Prod.mk.inj hu
      rw [← hcycleSame, ← htimerSame, ← hcycleRate, ← htimerRate]
      exact htimer
    · rw [hdue] at hstep
      cases hstep
    · rw [hdue] at hstep
      cases hstep
  · rw [hreceive] at hstep
    cases hstep
  · rw [hreceive] at hstep
    cases hstep

end State

namespace Story

variable [Sub α] [LT α] [DecidableLT α] {r : Story α}

-- Each turn is paused by the time it has acted on the message that it takes.
def PausedThrough (dice : Dice) (r : Story α) : List (Happening α) → Prop
  | [] => True
  | .stepped cycleTime timerTime :: rest =>
    r.state.receive.state.emulator.paused = true ∧
      PausedThrough dice (r.after dice (.stepped cycleTime timerTime)) rest
  | .meddled link :: rest => PausedThrough dice (r.after dice (.meddled link)) rest

-- No turn is the last one.
def GoesOn (dice : Dice) (r : Story α) : List (Happening α) → Prop
  | [] => True
  | .stepped cycleTime timerTime :: rest =>
    Session.goesOn (r.state.step dice cycleTime timerTime) = true ∧
      GoesOn dice (r.after dice (.stepped cycleTime timerTime)) rest
  | .meddled link :: rest => GoesOn dice (r.after dice (.meddled link)) rest

-- The messages that the turns take, oldest first.
def taken (dice : Dice) (r : Story α) : List (Happening α) → List Message
  | [] => []
  | .stepped cycleTime timerTime :: rest =>
    r.state.link.toEmulator.pending.head?.toList ++
      taken dice (r.after dice (.stepped cycleTime timerTime)) rest
  | .meddled link :: rest => taken dice (r.after dice (.meddled link)) rest

theorem after_of_paused (dice : Dice) (cycleTime timerTime : α)
    (hpaused : r.state.receive.state.emulator.paused = true) :
    let r' := r.after dice (.stepped cycleTime timerTime)
    r'.state.emulator.machine =
        r.state.link.toEmulator.pending.head?.toList.foldl Machine.told r.state.emulator.machine ∧
      ∃ news, r'.sent = r.sent ++ news ∧ ∀ message ∈ news, message = .event .quitAck := by
  obtain ⟨hmachine, hlink⟩ := State.step_of_paused dice cycleTime timerTime hpaused
  obtain ⟨news, htoScreen, hkind⟩ := State.receive_toScreen r.state
  refine ⟨?_, news.map .event, ?_, ?_⟩
  · rw [State.receive_emulator, afterOrder_machine] at hmachine
    exact hmachine
  · simp only [after, hlink, htoScreen, Session.sent_added]
  · intro message hmessage
    obtain ⟨event, hevent, rfl⟩ := List.mem_map.mp hmessage
    rw [hkind event hevent]

theorem run_of_paused (dice : Dice) (happenings : List (Happening α))
    (hpaused : PausedThrough dice r happenings) :
    (r.run dice happenings).state.emulator.machine =
        (taken dice r happenings).foldl Machine.told r.state.emulator.machine ∧
      ∃ news, (r.run dice happenings).sent = r.sent ++ news ∧
        ∀ message ∈ news, message = .event .quitAck := by
  induction happenings generalizing r with
  | nil => exact ⟨rfl, [], (List.append_nil _).symm, by simp⟩
  | cons happening rest ih =>
    cases happening with
    | stepped cycleTime timerTime =>
      obtain ⟨hmachine, first, hfirst, hfirstKind⟩ :=
        after_of_paused dice cycleTime timerTime hpaused.1
      obtain ⟨hrest, second, hsecond, hsecondKind⟩ := ih hpaused.2
      refine ⟨?_, first ++ second, ?_, ?_⟩
      · rw [taken, List.foldl_append, ← hmachine]
        exact hrest
      · rw [← List.append_assoc, ← hfirst]
        exact hsecond
      · intro message hmessage
        exact (List.mem_append.mp hmessage).elim (hfirstKind message) (hsecondKind message)
    | meddled link => exact ih hpaused

-- The rates after a run, by the readings of the clock alone.
def pace (rates : RateLimiter α × RateLimiter α) (reading : α × α) :
    RateLimiter α × RateLimiter α :=
  ((rates.1.poll reading.1).1, (rates.2.poll reading.2).1)

theorem run_rates (dice : Dice) (happenings : List (Happening α))
    (hgoes : GoesOn dice r happenings) :
    (r.run dice happenings).state.emulator.rates =
      (readings happenings).foldl pace r.state.emulator.rates := by
  induction happenings generalizing r with
  | nil => rfl
  | cons happening rest ih =>
    cases happening with
    | stepped cycleTime timerTime =>
      obtain ⟨hstep, hrest⟩ := hgoes
      have hafter : (r.after dice (.stepped cycleTime timerTime)).state.emulator.rates =
          pace r.state.emulator.rates (cycleTime, timerTime) := by
        rcases hturn : r.state.step dice cycleTime timerTime with t | t | ⟨t, cause⟩
        · simp only [after, hturn]
          exact State.step_rates hturn
        · rw [hturn] at hstep
          cases hstep
        · rw [hturn] at hstep
          cases hstep
      have hreadings : readings (.stepped cycleTime timerTime :: rest) =
          (cycleTime, timerTime) :: readings rest := rfl
      rw [hreadings, List.foldl_cons, ← hafter]
      exact ih hrest
    | meddled link => exact ih hgoes

-- In a pause a machine changes only by the keys and the resets it is told of, and nothing is sent
-- but the answer to an order to quit. Two emulators with the same rates and the same clock have
-- fired at the same times, whatever their programs, dice, keys, pauses and resets, until one ends.
theorem pausing_only_gates :
    (∀ (dice : Dice) (r : Story α) (happenings : List (Happening α)),
      PausedThrough dice r happenings →
        (r.run dice happenings).state.emulator.machine =
            (taken dice r happenings).foldl Machine.told r.state.emulator.machine ∧
          ∃ news, (r.run dice happenings).sent = r.sent ++ news ∧
            ∀ message ∈ news, message = .event .quitAck) ∧
    ∀ (dice dice' : Dice) (r r' : Story α) (happenings happenings' : List (Happening α)),
      r.state.emulator.rates = r'.state.emulator.rates →
      readings happenings = readings happenings' →
      GoesOn dice r happenings → GoesOn dice' r' happenings' →
        (r.run dice happenings).state.emulator.rates =
          (r'.run dice' happenings').state.emulator.rates := by
  refine ⟨fun dice r happenings hpaused => run_of_paused dice happenings hpaused, ?_⟩
  intro dice dice' r r' happenings happenings' hrates hreadings hgoes hgoes'
  rw [run_rates dice happenings hgoes, run_rates dice' happenings' hgoes', hrates, hreadings]

-- An emulator that hears of a pause, of the keys and of a reset, and one without a program that hears
-- of nothing. Their rates have fired together.
theorem pausing_only_gates_beside :
    let dice : Dice := fun _ => 0
    let orders : List Message :=
      [.control (.pause true), .control (.keys (.replicate 16 true)), .control .reset]
    let quiet : Story Int := started (.withRom .powerOn #[0x12, 0x00]) ⟨9, 0⟩ ⟨2, 0⟩
      ⟨⟨"ui->emu", orders, false⟩, .opened "emu->ui"⟩
    let busy : Story Int := started .powerOn ⟨9, 0⟩ ⟨2, 0⟩ .fresh
    let happenings : List (Happening Int) := [.stepped 1 1, .stepped 2 2, .stepped 3 3]
    PausedThrough dice quiet happenings ∧ GoesOn dice quiet happenings ∧
      GoesOn dice busy happenings ∧
      (quiet.run dice happenings).state.emulator.machine =
        orders.foldl Machine.told quiet.state.emulator.machine ∧
      (quiet.run dice happenings).state.emulator.rates =
        (busy.run dice happenings).state.emulator.rates ∧
      (busy.run dice happenings).state.emulator.timerRate = ⟨2, 2⟩ := by
  intro dice orders quiet busy happenings
  have hpaused : PausedThrough dice quiet happenings := ⟨rfl, rfl, rfl, trivial⟩
  have hquiet : GoesOn dice quiet happenings := ⟨rfl, rfl, rfl, trivial⟩
  have hbusy : GoesOn dice busy happenings := ⟨rfl, rfl, rfl, trivial⟩
  have htaken : taken dice quiet happenings = orders := rfl
  obtain ⟨hgates, hpaces⟩ := @pausing_only_gates Int _ _ _
  have hmachine := (hgates dice quiet happenings hpaused).1
  rw [htaken] at hmachine
  have hrates : quiet.state.emulator.rates = busy.state.emulator.rates := by decide +kernel
  have hpaced := hpaces dice dice quiet busy happenings happenings hrates rfl hquiet hbusy
  exact ⟨hpaused, hquiet, hbusy, hmachine, hpaced, by decide +kernel⟩

end Story

end Emulator

end SuperChip
