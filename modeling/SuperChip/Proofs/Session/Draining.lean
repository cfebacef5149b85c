import SuperChip.Proofs.Emulator.Parts
import SuperChip.Proofs.Presenter.Given

-- How either loop ends once the channel it receives from is closed. Each turn takes one of the
-- messages that are left, and the turn that finds none is the last.
namespace SuperChip

instance : DecidablePred Message.IsEnd
  | .event (.draw _ _) => isFalse id
  | .event (.beep _) => isFalse id
  | .event .quitAck => isTrue trivial
  | .event (.fault _) => isTrue trivial
  | .control _ => isFalse id
  | .text _ => isFalse id

namespace Emulator

variable {α : Type}

-- The time at which a turn asks each rate, and the channel to the screen as the other side has left
-- it.
structure Occasion (α : Type) where
  cycleTime : α
  timerTime : α
  toScreen : Channel Message

namespace State

variable {s t : State α}

section Loop

variable [Sub α] [LT α] [DecidableLT α]

-- The turns of a loop, up to the one that ends it.
def loop (dice : Dice) : List (Occasion α) → State α → Result α
  | [], s => .goOn s
  | o :: rest, s =>
    ({ s with link.toScreen := o.toScreen }.turn dice o.cycleTime o.timerTime).andThen
      (loop dice rest)

end Loop

def IsOver (t : State α) : Prop := t.emulator.running = false ∧ t.link.toScreen.closed = true

theorem finish_isOver (s : State α) : s.finish.IsOver := ⟨rfl, rfl⟩

-- Nothing has gone wrong that a loop does not deal with, the machine is well formed, and the orders
-- that wait are as they were.
structure Works (s : State α) (result : Result α) : Prop where
  expected : ∀ t cause, result = .fail t cause → cause.isExpected = true
  machine : result.state.emulator.machine.WellFormed
  toEmulator : result.state.link.toEmulator = s.link.toEmulator

theorem Works.goOn (hm : t.emulator.machine.WellFormed)
    (hlink : t.link.toEmulator = s.link.toEmulator) : Works s (.goOn t) := by
  refine ⟨?_, hm, hlink⟩
  intro u cause hfail
  cases hfail

theorem Works.stop (hm : t.emulator.machine.WellFormed)
    (hlink : t.link.toEmulator = s.link.toEmulator) : Works s (.stop t) := by
  refine ⟨?_, hm, hlink⟩
  intro u cause hfail
  cases hfail

theorem Works.andThen {result : Result α} {f : State α → Result α} (h : Works s result)
    (hf : ∀ u, Works s (.goOn u) → Works s (f u)) : Works s (result.andThen f) := by
  cases result with
  | goOn u => exact hf u h
  | stop u => exact h
  | fail u cause => exact h

theorem Works.of_toEmulator {result : Result α} (h : Works t result)
    (hlink : t.link.toEmulator = s.link.toEmulator) : Works s result :=
  ⟨h.expected, h.machine, h.toEmulator.trans hlink⟩

theorem Works.send (hm : t.emulator.machine.WellFormed)
    (hlink : t.link.toEmulator = s.link.toEmulator) (event : Event) : Works s (t.send event) := by
  rcases send_cases t event with h | ⟨closed, h⟩ <;> rw [h]
  · exact .goOn hm hlink
  · refine ⟨?_, hm, hlink⟩
    rintro u cause ⟨⟩
    rfl

theorem afterOrder_wellFormed {e : Emulator α} (hm : e.machine.WellFormed)
    {message : Option Message} (hwhole : ∀ order ∈ message, order.IsWhole) :
    (e.afterOrder message).machine.WellFormed := by
  unfold afterOrder
  split
  · next held =>
    refine { hm with keys_length := ?_ }
    have hlong := hwhole _ rfl held rfl
    simp only [List.length_take, keyCount]
    omega
  · exact hm
  · exact hm.inBounds.reset
  · exact hm

theorem answer_works (hm : s.emulator.machine.WellFormed) {message : Option Message}
    (hwhole : ∀ order ∈ message, order.IsWhole) : Works s (s.answer message) := by
  refine ⟨?_, ?_, (answer_sends s message).toEmulator⟩
  · intro t cause hfail
    by_cases hquit : message = some (.control .quit)
    · subst hquit
      have hsend : Works s (s.answer (some (.control .quit))) :=
        (Works.send hm rfl .quitAck).andThen fun u hu => .stop hu.machine hu.toEmulator
      exact hsend.expected t cause hfail
    · obtain ⟨u, hgoes⟩ := answer_goesOn s hquit
      rw [hgoes] at hfail
      cases hfail
  · rw [answer_emulator]
    exact afterOrder_wellFormed hm hwhole

theorem publish_works (hm : t.emulator.machine.WellFormed)
    (hlink : t.link.toEmulator = s.link.toEmulator) : Works s t.publish := by
  rw [publish_eq]
  split
  · refine (Works.send hm hlink _).andThen fun u hu => .goOn ?_ hu.toEmulator
    exact { hm with }
  · exact .goOn hm hlink

theorem cycle_works (dice : Dice) (hm : s.emulator.machine.WellFormed) :
    Works s (s.cycle dice) := by
  have hafter : (s.emulator.machine.cycle dice).1.WellFormed :=
    Machine.execute_wellFormed dice hm _
  have hfault : ∀ fault, (s.emulator.machine.cycle dice).2 = some fault →
      fault = .unknownWord s.emulator.machine.nextWord s.emulator.machine.pc :=
    fun fault hf => (Machine.fault_execute dice hm hf).2
  unfold State.cycle
  generalize s.emulator.machine.cycle dice = outcome at hafter hfault ⊢
  obtain ⟨m, fault⟩ := outcome
  rcases fault with _ | fault
  · exact publish_works hafter rfl
  · obtain rfl := hfault fault rfl
    refine Works.andThen (.send ?_ ?_ _) fun u hu => .stop hu.machine hu.toEmulator
    · exact hafter
    · rfl

theorem tick_works (hm : s.emulator.machine.WellFormed) : Works s s.tick := by
  have hafter := Machine.tick_wellFormed hm
  unfold State.tick
  rw [announce_eq]
  split
  · exact .goOn hafter rfl
  · refine .send ?_ ?_ _
    · exact hafter
    · rfl

variable [Sub α] [LT α] [DecidableLT α]

theorem whenCycleDue_works (dice : Dice) (hm : s.emulator.machine.WellFormed) (now : α) :
    Works s (s.whenCycleDue now (cycle dice)) := by
  rw [whenCycleDue_eq]
  split
  · obtain ⟨hexpected, hmachine, hlink⟩ := cycle_works (s := s.cyclePolled now) dice hm
    exact ⟨hexpected, hmachine, hlink⟩
  · exact .goOn hm rfl

theorem whenTimerDue_works (hm : s.emulator.machine.WellFormed) (now : α) :
    Works s (s.whenTimerDue now tick) := by
  rw [whenTimerDue_eq]
  split
  · obtain ⟨hexpected, hmachine, hlink⟩ := tick_works (s := s.timerPolled now) hm
    exact ⟨hexpected, hmachine, hlink⟩
  · exact .goOn hm rfl

-- A turn that finds an order takes that one and no other.
theorem step_works (dice : Dice) (cycleTime timerTime : α) (hm : s.emulator.machine.WellFormed)
    {message : Message} {rest : List Message} (hp : s.link.toEmulator.pending = message :: rest)
    (hwhole : message.IsWhole) :
    Works { s with link.toEmulator := { s.link.toEmulator with pending := rest } }
      (s.step dice cycleTime timerTime) := by
  have hanswer : s.receive = answer (some message)
      { s with link.toEmulator := { s.link.toEmulator with pending := rest } } := by
    rw [receive_eq, Channel.receive_of_cons hp]
  have hall : ∀ order ∈ some message, order.IsWhole := by
    rintro order ⟨⟩
    exact hwhole
  unfold step
  rw [hanswer]
  generalize htaken : ({ s with link.toEmulator := { s.link.toEmulator with pending := rest } } :
    State α) = t
  have hm' : t.emulator.machine.WellFormed := htaken ▸ hm
  have hcycled : Works t ((t.answer (some message)).andThen fun u =>
      u.whenCycleDue cycleTime (cycle dice)) :=
    (answer_works hm' hall).andThen fun u hu =>
      (whenCycleDue_works dice hu.machine cycleTime).of_toEmulator hu.toEmulator
  exact hcycled.andThen fun u hu =>
    (whenTimerDue_works hu.machine timerTime).of_toEmulator hu.toEmulator

-- A turn ends the loop, or takes one of the orders that wait.
theorem turn_of_closed (dice : Dice) (cycleTime timerTime : α)
    (hm : s.emulator.machine.WellFormed) (hclosed : s.link.toEmulator.closed = true)
    (hwhole : ∀ message ∈ s.link.toEmulator.pending, message.IsWhole) :
    (∃ t, s.turn dice cycleTime timerTime = .stop t ∧ t.IsOver) ∨
      ∃ t message rest, s.turn dice cycleTime timerTime = .goOn t ∧
        s.link.toEmulator.pending = message :: rest ∧ t.emulator.machine.WellFormed ∧
        t.link.toEmulator = { s.link.toEmulator with pending := rest } := by
  unfold turn
  cases hrunning : s.emulator.running with
  | false => exact .inl ⟨s.finish, rfl, finish_isOver s⟩
  | true =>
    rw [if_pos rfl]
    rcases hp : s.link.toEmulator.pending with _ | ⟨message, rest⟩
    · left
      have hrefused : s.step dice cycleTime timerTime =
          .fail s (.channel (.receiving s.link.toEmulator.name)) := by
        simp only [step, receive_eq, Channel.receive, hp, hclosed, if_true, Turn.andThen_fail]
      rw [hrefused]
      exact ⟨_, rfl, finish_isOver _⟩
    · have hworks := step_works dice cycleTime timerTime hm hp
        (hwhole message (hp ▸ List.mem_cons_self))
      rcases hstep : s.step dice cycleTime timerTime with t | t | ⟨t, cause⟩
      · rw [hstep] at hworks
        exact .inr ⟨t, message, rest, rfl, rfl, hworks.machine, hworks.toEmulator⟩
      · exact .inl ⟨t.finish, rfl, finish_isOver t⟩
      · have hexpected := hworks.expected t cause hstep
        simp only [settle, hexpected, if_true]
        exact .inl ⟨_, rfl, finish_isOver _⟩

theorem loop_ends (dice : Dice) (occasions : List (Occasion α))
    (hm : s.emulator.machine.WellFormed) (hclosed : s.link.toEmulator.closed = true)
    (hwhole : ∀ message ∈ s.link.toEmulator.pending, message.IsWhole)
    (hlong : s.link.toEmulator.pending.length < occasions.length) :
    ∃ t, loop dice occasions s = .stop t ∧ t.IsOver := by
  induction occasions generalizing s with
  | nil => exact absurd hlong (Nat.not_lt_zero _)
  | cons o rest ih =>
    rcases turn_of_closed (s := { s with link.toScreen := o.toScreen }) dice o.cycleTime o.timerTime
      hm hclosed hwhole with ⟨t, hturn, hover⟩ | ⟨t, message, later, hturn, hp, hafter, hlink⟩
    · refine ⟨t, ?_, hover⟩
      rw [loop, hturn, Turn.andThen_stop]
    · have hpending : s.link.toEmulator.pending = message :: later := hp
      rw [loop, hturn, Turn.andThen_goOn]
      refine ih hafter ?_ ?_ ?_
      · rw [hlink]
        exact hclosed
      · rw [hlink]
        exact fun order horder => hwhole order (hpending ▸ List.mem_cons_of_mem _ horder)
      · rw [hlink]
        rw [hpending, List.length_cons, List.length_cons] at hlong
        exact Nat.lt_of_succ_lt_succ hlong

end State

end Emulator

namespace Presenter

variable {α : Type}

-- What the user did by the time of a turn, and the channel to the emulator as the other side has
-- left it.
structure Occasion (α : Type) where
  input : Option InputEvent
  now : α
  toEmulator : Channel Message

-- The fault that is left when all that waits has been looked at: the first news of an end decides,
-- and without any the end of the channel does.
def faultLeft (noted : Option String) (name : String) (waiting : List Message) : Option String :=
  match waiting.find? fun message => message.IsEnd with
  | some (.event (.fault reason)) => some reason
  | some _ => noted
  | none => some (Channel.Closed.receiving name).message

def beepsBeforeEnd (waiting : List Message) : List Bool :=
  (waiting.takeWhile fun message => ¬ message.IsEnd).filterMap Message.beep?

theorem faultLeft_cons {message : Message} (h : ¬ message.IsEnd) (noted : Option String)
    (name : String) (rest : List Message) :
    faultLeft noted name (message :: rest) = faultLeft noted name rest := by
  simp only [faultLeft, List.find?_cons, h, decide_false]

theorem beepsBeforeEnd_cons {message : Message} (h : ¬ message.IsEnd) (rest : List Message) :
    beepsBeforeEnd (message :: rest) = message.beep?.toList ++ beepsBeforeEnd rest := by
  simp only [beepsBeforeEnd, List.takeWhile_cons, h, not_false_eq_true, decide_true, if_true,
    List.filterMap_cons]
  cases message.beep? <;> rfl

namespace State

variable {s t : State α}

-- A loop that has ended, the fault it was left with and all that it told the speaker.
structure IsOver (fault : Option String) (told : List Bool) (t : State α) : Prop where
  toEmulator : t.link.toEmulator.closed = true
  toScreen : t.link.toScreen.closed = true
  fault : t.presenter.fault = fault
  sounds : Presenter.sounds t.outputs = told

variable [Sub α] [LT α] [DecidableLT α]

def loop : List (Occasion α) → State α → Result α
  | [], s => .goOn s
  | o :: rest, s =>
    ({ s with link.toEmulator := o.toEmulator }.turn o.input o.now).andThen (loop rest)

theorem turn_of_open (hopen : s.link.toEmulator.closed = false) (input : Option InputEvent)
    (now : α) : s.turn input now = settle (receive now (s.afterInput input)) := by
  simp only [turn, step, heedInput_of_open hopen, Turn.andThen_goOn]

theorem receive_fault {message : Message} {rest : List Message}
    (hp : s.link.toScreen.pending = message :: rest) (hend : ¬ message.IsEnd) (now : α) :
    ∃ t, receive now s = .goOn t ∧
      t.link.toScreen = { s.link.toScreen with pending := rest } ∧
      t.presenter.fault = s.presenter.fault := by
  have htaken : s.taken.link.toScreen = { s.link.toScreen with pending := rest } := by
    simp only [taken, hp, List.tail_cons]
  by_cases hevent : ∃ event, message = .event event
  · obtain ⟨event, rfl⟩ := hevent
    rw [receive_of_event hp]
    cases event with
    | draw mode frame =>
      refine ⟨_, rfl, ?_, ?_⟩
      · rw [refresh_link]
        exact htaken
      · rw [refresh_presenter]
        rfl
    | beep on => exact ⟨_, rfl, htaken, rfl⟩
    | quitAck => exact absurd trivial hend
    | fault reason => exact absurd trivial hend
  · rw [receive_of_other hp fun event he => hevent ⟨event, he⟩]
    exact ⟨_, rfl, htaken, rfl⟩

-- A turn that finds news of no end takes them and goes on.
theorem turn_of_news (hopen : s.link.toEmulator.closed = false) {message : Message}
    {rest : List Message} (hp : s.link.toScreen.pending = message :: rest)
    (hend : ¬ message.IsEnd) (input : Option InputEvent) (now : α) :
    ∃ t, s.turn input now = .goOn t ∧
      t.link.toScreen = { s.link.toScreen with pending := rest } ∧
      t.presenter.fault = s.presenter.fault ∧
      Presenter.sounds t.outputs = Presenter.sounds s.outputs ++ message.beep?.toList := by
  obtain ⟨t, hreceive, hlink, hfault⟩ := receive_fault (s := s.afterInput input) hp hend now
  have hsounds := (receive_gave now (s.afterInput input)).1.sounded
  rw [hreceive, hearing, show (s.afterInput input).link.toScreen.pending = message :: rest from hp]
    at hsounds
  refine ⟨t, ?_, hlink, hfault, hsounds.trans (congrArg _ ?_)⟩
  · rw [turn_of_open hopen, hreceive]
    rfl
  · simp only [List.head?_cons, Option.map_some, Option.toList_some, beeps, List.filterMap_cons,
      Reception.beep?, List.filterMap_nil]
    cases message.beep? <;> rfl

-- A turn that finds news of an end, or nothing at all, is the last one.
theorem turn_of_end (hopen : s.link.toEmulator.closed = false) {message : Message}
    {rest : List Message} (hp : s.link.toScreen.pending = message :: rest)
    (hend : message.IsEnd) (input : Option InputEvent) (now : α) :
    ∃ t, s.turn input now = .stop t ∧
      t.IsOver (faultLeft s.presenter.fault s.link.toScreen.name (message :: rest))
        (Presenter.sounds s.outputs) := by
  rw [turn_of_open hopen]
  rcases message with order | event | text
  · exact absurd hend id
  · rw [receive_of_event (by exact hp)]
    cases event with
    | draw mode frame => exact absurd hend id
    | beep on => exact absurd hend id
    | quitAck => exact ⟨_, rfl, rfl, rfl, rfl, rfl⟩
    | fault reason => exact ⟨_, rfl, rfl, rfl, rfl, rfl⟩
  · exact absurd hend id

theorem turn_of_nothing (hopen : s.link.toEmulator.closed = false)
    (hclosed : s.link.toScreen.closed = true) (hp : s.link.toScreen.pending = [])
    (input : Option InputEvent) (now : α) :
    ∃ t, s.turn input now = .stop t ∧
      t.IsOver (faultLeft s.presenter.fault s.link.toScreen.name [])
        (Presenter.sounds s.outputs) := by
  have hrefused : receive now (s.afterInput input) =
      .fail (s.afterInput input) (.channel (.receiving s.link.toScreen.name)) := by
    have hrefusal : (s.afterInput input).link.toScreen.receive =
        .error (.receiving s.link.toScreen.name) := by
      rw [Channel.receive, show (s.afterInput input).link.toScreen.pending = [] from hp]
      exact if_pos hclosed
    simp only [receive, hrefusal]
  rw [turn_of_open hopen, hrefused]
  exact ⟨_, rfl, rfl, rfl, rfl, rfl⟩

-- A turn that is not the last one notes no fault.
theorem fault_of_receive {now : α} (hreceive : receive now s = .goOn t) :
    t.presenter.fault = s.presenter.fault := by
  rcases hp : s.link.toScreen.pending with _ | ⟨message, rest⟩
  · cases hclosed : s.link.toScreen.closed with
    | true =>
      simp only [receive, Channel.receive, hp, hclosed, if_true] at hreceive
      cases hreceive
    | false =>
      rw [receive_of_nil hp hclosed] at hreceive
      cases hreceive
      rfl
  · by_cases hend : message.IsEnd
    · exfalso
      rcases message with order | event | text
      · exact hend
      · rw [receive_of_event hp] at hreceive
        cases event with
        | draw mode frame => exact hend
        | beep on => exact hend
        | quitAck => cases hreceive
        | fault reason => cases hreceive
      · exact hend
    · obtain ⟨u, hgoes, -, hfault⟩ := receive_fault hp hend now
      rw [hgoes] at hreceive
      cases hreceive
      exact hfault

theorem fault_of_turn {input : Option InputEvent} {now : α} (hturn : s.turn input now = .goOn t) :
    t.presenter.fault = s.presenter.fault := by
  have hheeded := (heedInput_sameScreen s input).fault
  unfold turn step at hturn
  rcases hheed : s.heedInput input with u | u | ⟨u, cause⟩
  · rw [hheed] at hheeded
    rw [hheed, Turn.andThen_goOn] at hturn
    rcases hreceive : receive now u with v | v | ⟨v, cause⟩
    · rw [hreceive] at hturn
      cases hturn
      exact (fault_of_receive hreceive).trans hheeded
    · rw [hreceive] at hturn
      cases hturn
    · rw [hreceive, settle] at hturn
      split at hturn <;> cases hturn
  · rw [hheed] at hturn
    cases hturn
  · rw [hheed, Turn.andThen_fail, settle] at hturn
    split at hturn <;> cases hturn

-- Where a loop can be that was begun and goes on, whatever is done to its channels.
inductive Underway : State α → Prop
  | begun {s : State α} {refreshRate : RateLimiter α} (hfresh : s.presenter = .fresh refreshRate) :
    Underway s
  | wentOn {s t : State α} {input : Option InputEvent} {now : α} (h : Underway s)
    (hturn : s.turn input now = .goOn t) : Underway t
  | meddled {s : State α} (h : Underway s) (link : Link) : Underway { s with link }

theorem Underway.fault (h : Underway s) : s.presenter.fault = none := by
  induction h with
  | begun hfresh => rw [hfresh, fresh]
  | wentOn _ hturn ih => rw [fault_of_turn hturn, ih]
  | meddled _ _ ih => exact ih

theorem loop_ends (occasions : List (Occasion α)) (hclosed : s.link.toScreen.closed = true)
    (hopen : ∀ o ∈ occasions, o.toEmulator.closed = false)
    (hlong : s.link.toScreen.pending.length < occasions.length) :
    ∃ t, loop occasions s = .stop t ∧
      t.IsOver (faultLeft s.presenter.fault s.link.toScreen.name s.link.toScreen.pending)
        (Presenter.sounds s.outputs ++ beepsBeforeEnd s.link.toScreen.pending) := by
  induction occasions generalizing s with
  | nil => exact absurd hlong (Nat.not_lt_zero _)
  | cons o later ih =>
    have ho : o.toEmulator.closed = false := hopen o List.mem_cons_self
    rw [loop]
    rcases hp : s.link.toScreen.pending with _ | ⟨message, rest⟩
    · obtain ⟨t, hturn, hover⟩ := turn_of_nothing
        (s := { s with link.toEmulator := o.toEmulator }) ho hclosed hp o.input o.now
      rw [hturn, Turn.andThen_stop]
      refine ⟨t, rfl, ?_⟩
      rw [beepsBeforeEnd, List.takeWhile_nil, List.filterMap_nil, List.append_nil]
      exact hover
    · by_cases hend : message.IsEnd
      · obtain ⟨t, hturn, hover⟩ := turn_of_end
          (s := { s with link.toEmulator := o.toEmulator }) ho hp hend o.input o.now
        have hnone : beepsBeforeEnd (message :: rest) = [] := by
          simp only [beepsBeforeEnd, List.takeWhile_cons, hend, not_true_eq_false, decide_false,
            Bool.false_eq_true, if_false, List.filterMap_nil]
        rw [hturn, Turn.andThen_stop, hnone, List.append_nil]
        exact ⟨t, rfl, hover⟩
      · obtain ⟨t, hturn, hlink, hfault, hsounds⟩ := turn_of_news
          (s := { s with link.toEmulator := o.toEmulator }) ho hp hend o.input o.now
        have hshorter : rest.length < later.length := by
          rw [hp, List.length_cons, List.length_cons] at hlong
          exact Nat.lt_of_succ_lt_succ hlong
        have hrest := ih (s := t) (by rw [hlink]; exact hclosed)
          (fun o' ho' => hopen o' (List.mem_cons_of_mem _ ho')) (by rw [hlink]; exact hshorter)
        rw [hturn, Turn.andThen_goOn, faultLeft_cons hend, beepsBeforeEnd_cons hend,
          ← List.append_assoc]
        rw [hlink, hfault, hsounds] at hrest
        exact hrest

end State

end Presenter

namespace Session

-- Once its incoming channel is closed a loop takes at most one turn more than there are messages
-- left in it, whatever they are and whatever the other side does meanwhile. The presentation side
-- hears every beep before the news that end it, and what its fault is then goes by these news: if
-- they are the answer to an order to quit it is left as it was. As long as the loop goes on it has
-- none.
theorem loops_end_when_cut_off {α : Type} [Sub α] [LT α] [DecidableLT α] :
    (∀ (dice : Dice) (s : Emulator.State α) (occasions : List (Emulator.Occasion α)),
      s.emulator.machine.WellFormed → s.link.toEmulator.closed = true →
      (∀ message ∈ s.link.toEmulator.pending, message.IsWhole) →
      s.link.toEmulator.pending.length < occasions.length →
        ∃ t, Emulator.State.loop dice occasions s = .stop t ∧
          t.emulator.running = false ∧ t.link.toScreen.closed = true) ∧
    (∀ (s : Presenter.State α) (occasions : List (Presenter.Occasion α)),
      s.link.toScreen.closed = true → (∀ o ∈ occasions, o.toEmulator.closed = false) →
      s.link.toScreen.pending.length < occasions.length →
        let waiting := s.link.toScreen.pending
        ∃ t, Presenter.State.loop occasions s = .stop t ∧
          t.link.toEmulator.closed = true ∧ t.link.toScreen.closed = true ∧
          t.presenter.fault =
            Presenter.faultLeft s.presenter.fault s.link.toScreen.name waiting ∧
          Presenter.sounds t.outputs =
            Presenter.sounds s.outputs ++ Presenter.beepsBeforeEnd waiting) ∧
    ∀ s : Presenter.State α, s.Underway → s.presenter.fault = none := by
  refine ⟨?_, ?_, fun s hunderway => hunderway.fault⟩
  · intro dice s occasions hm hclosed hwhole hlong
    exact Emulator.State.loop_ends dice occasions hm hclosed hwhole hlong
  · intro s occasions hclosed hopen hlong
    obtain ⟨t, hloop, hover⟩ := Presenter.State.loop_ends occasions hclosed hopen hlong
    exact ⟨t, hloop, hover.toEmulator, hover.toScreen, hover.fault, hover.sounds⟩

-- An emulator that is told to pause, of the keys, and then no more, and a presenter that hears of a
-- fault between two beeps.
theorem loops_end_when_cut_off_waiting :
    let orders : List Message := [.control (.pause true), .control (.keys (.replicate 16 true))]
    let news : List Message :=
      [.event (.beep true), .text "", .event (.fault "lost"), .event (.beep false)]
    let e : Emulator.State Int :=
      ⟨.fresh .powerOn ⟨1, 0⟩ ⟨1, 0⟩, ⟨⟨"ui->emu", orders, true⟩, .opened "emu->ui"⟩, []⟩
    let p : Presenter.State Int :=
      ⟨.fresh ⟨1, 0⟩, ⟨.opened "ui->emu", ⟨"emu->ui", news, true⟩⟩, [], []⟩
    (∃ t, e.begin.loop (fun _ => 0) (.replicate 3 ⟨5, 5, .opened "emu->ui"⟩) = .stop t ∧
      t.emulator.running = false ∧ t.link.toScreen.closed = true) ∧
    (∃ t, p.loop (.replicate 5 ⟨some .quit, 5, .opened "ui->emu"⟩) = .stop t ∧
      t.presenter.fault = some "lost" ∧ Presenter.sounds t.outputs = [true]) ∧
    ∃ t, p.turn (some .quit) 5 = .goOn t ∧ t.Underway ∧ t.presenter.fault = none := by
  intro orders news e p
  obtain ⟨hemulator, hpresenter, hnoted⟩ := @loops_end_when_cut_off Int _ _ _
  have hwhole : ∀ message ∈ orders, message.IsWhole := by
    intro message hmessage held hkeys
    subst hkeys
    have hheld : held = .replicate 16 true := by simpa [orders] using hmessage
    rw [hheld, List.length_replicate]
  obtain ⟨t, hloop, -, -, hfault, hsounds⟩ :=
    hpresenter p (.replicate 5 ⟨some .quit, 5, .opened "ui->emu"⟩) rfl (by simp [Channel.opened])
      (by decide)
  have hended := hemulator (fun _ => 0) e.begin (.replicate 3 ⟨5, 5, .opened "emu->ui"⟩)
    Machine.powerOn_wellFormed rfl hwhole (by decide)
  refine ⟨hended, ?_, ?_⟩
  · exact ⟨t, hloop, hfault, hsounds⟩
  · have hbegun : p.Underway := .begun rfl
    have hunderway := hbegun.wentOn (show p.turn (some .quit) 5 = .goOn _ from rfl)
    exact ⟨_, rfl, hunderway, hnoted _ hunderway⟩

-- A presenter that hears of a fault, whose turns are not brought to an end for it, and that then
-- hears of the answer to an order to quit. What it has noted stays.
theorem fault_outlives_quitAck :
    let hearing (s : Presenter.State Int) (news : List Message) (closed : Bool) :
        Presenter.State Int := { s with link.toScreen := ⟨"emu->ui", news, closed⟩ }
    let faulted := (hearing (.started ⟨1, 0⟩) [.event (.fault "lost")] false).step none 0
    let s := hearing faulted.state [.event .quitAck] true
    s.link.toScreen.closed = true ∧ s.link.toEmulator.closed = false ∧
      s.link.toScreen.pending.find? (fun message => message.IsEnd) = some (.event .quitAck) ∧
      ∃ t, s.loop (.replicate 2 ⟨none, 0, s.link.toEmulator⟩) = .stop t ∧
        t.presenter.fault = some "lost" :=
  ⟨rfl, rfl, rfl, _, rfl, rfl⟩

end Session

end SuperChip
