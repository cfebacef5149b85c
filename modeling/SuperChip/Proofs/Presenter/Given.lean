import Mathlib.Algebra.Order.Group.Int
import Mathlib.Algebra.Order.Group.Unbundled.Basic
import SuperChip.Proofs.Presenter.Pictures

-- What a presenter gives out of all that it takes in, whatever is done to its channels in between.
-- A picture goes to the screen in the turn that takes it or never, and the beep goes to the speaker
-- at once.
namespace SuperChip.Presenter

variable {α : Type}

-- A message that a turn has taken, with the time of the turn and the pause that its input has left.
structure Reception (α : Type) where
  message : Message
  now : α
  paused : Bool

namespace Reception

def arrival? (r : Reception α) : Option (Arrival α) := Presenter.arrival? r.paused r.now [r.message]

def beep? (r : Reception α) : Option Bool := r.message.beep?

end Reception

def pictures (receptions : List (Reception α)) : List (Arrival α) :=
  receptions.filterMap Reception.arrival?

def beeps (receptions : List (Reception α)) : List Bool := receptions.filterMap Reception.beep?

-- What a presenter goes through: it takes a turn, or whoever else uses the channels leaves them in
-- some state.
inductive Episode (α : Type) where
  | stepped (input : Option InputEvent) (now : α)
  | meddled (link : Link)

def clock (episodes : List (Episode α)) : List α :=
  episodes.filterMap fun
    | .stepped _ now => some now
    | .meddled _ => none

-- What is taken from the channel at some time.
def State.hearing (now : α) (s : State α) : Option (Reception α) :=
  s.link.toScreen.pending.head?.map fun message => ⟨message, now, s.presenter.paused⟩

-- A turn takes a message once it is done with its input.
def State.reception? (input : Option InputEvent) (now : α) (s : State α) : Option (Reception α) :=
  match s.heedInput input with
  | .goOn t => t.hearing now
  | _ => none

-- A presenter and all that it has received.
structure Story (α : Type) where
  state : State α
  received : List (Reception α)

namespace Story

variable [Sub α] [LT α] [DecidableLT α]

def after (r : Story α) : Episode α → Story α
  | .stepped input now =>
    { state := (r.state.step input now).state
      received := r.received ++ (r.state.reception? input now).toList }
  | .meddled link => { r with state.link := link }

def run (r : Story α) (episodes : List (Episode α)) : Story α := episodes.foldl after r

end Story

namespace State

variable {s t u : State α}

theorem now_of_reception {input : Option InputEvent} {now : α}
    {reception : Reception α} (h : s.reception? input now = some reception) :
    reception.now = now := by
  unfold reception? at h
  split at h
  · obtain ⟨message, -, rfl⟩ := Option.map_eq_some_iff.mp h
    rfl
  · cases h

-- Every reading of the clock is that of one reception at most.
theorem clock_after (input : Option InputEvent) (now : α) :
    ((s.reception? input now).toList.map Reception.now).Sublist [now] := by
  cases h : s.reception? input now with
  | none => exact List.nil_sublist _
  | some reception =>
    have hnow := now_of_reception h
    simp only [Option.toList_some, List.map_cons, List.map_nil, hnow]
    exact .refl _

-- An input is no matter to what comes from the emulation side, nor to what is given out.
structure SameScreen (s t : State α) : Prop where
  toScreen : t.link.toScreen = s.link.toScreen
  refreshRate : t.presenter.refreshRate = s.presenter.refreshRate
  fault : t.presenter.fault = s.presenter.fault
  outputs : t.outputs = s.outputs

theorem SameScreen.refl (s : State α) : SameScreen s s := ⟨rfl, rfl, rfl, rfl⟩

theorem SameScreen.trans (h : SameScreen s t) (h' : SameScreen t u) : SameScreen s u :=
  ⟨h'.toScreen.trans h.toScreen, h'.refreshRate.trans h.refreshRate, h'.fault.trans h.fault,
    h'.outputs.trans h.outputs⟩

theorem send_sameScreen (s : State α) (order : Control) : SameScreen s (s.send order).state := by
  unfold send
  rcases s.link.toEmulator.send (.control order) with closed | toEmulator <;>
    exact ⟨rfl, rfl, rfl, rfl⟩

theorem heedInput_sameScreen (s : State α) (input : Option InputEvent) :
    SameScreen s (s.heedInput input).state := by
  have hset : ∀ (t : State α) (paused : Bool) (order : Control),
      SameScreen t ((t.pauseSetTo paused).send order).state := by
    intro t paused order
    have hpaused : SameScreen t (t.pauseSetTo paused) := ⟨rfl, rfl, rfl, rfl⟩
    exact hpaused.trans (send_sameScreen _ order)
  rcases input with _ | event
  · exact .refl s
  cases event with
  | quit =>
    simp only [heedInput, heed]
    split
    · exact .refl s
    · have hsent : SameScreen s { s with presenter := { s.presenter with quitSent := true } } :=
        ⟨rfl, rfl, rfl, rfl⟩
      exact hsent.trans (send_sameScreen _ .quit)
  | togglePause => exact hset s _ _
  | reset =>
    refine Turn.state_andThen (p := SameScreen s) (send_sameScreen s .reset) ?_
    exact fun t ht => ht.trans (hset t false _)
  | keypad held =>
    simp only [heedInput, heed]
    split
    · exact .refl s
    · exact send_sameScreen s _
  | other => exact .refl s

variable [Sub α] [LT α] [DecidableLT α]

-- What a presenter has become by what it received.
structure Gave (s : State α) (receptions : List (Reception α)) (t : State α) : Prop where
  showed : Showed s (pictures receptions) t
  sounded : sounds t.outputs = sounds s.outputs ++ beeps receptions

theorem SameScreen.gave (h : SameScreen s t) : Gave s [] t := by
  refine ⟨.of_eq h.refreshRate (congrArg Presenter.shown h.outputs), ?_⟩
  rw [h.outputs]
  exact (List.append_nil _).symm

theorem Gave.trans {first second : List (Reception α)} (h : Gave s first t)
    (h' : Gave t second u) : Gave s (first ++ second) u := by
  refine ⟨?_, ?_⟩
  · rw [pictures, List.filterMap_append]
    exact h.showed.trans h'.showed
  · rw [h'.sounded, h.sounded, beeps, beeps, beeps, List.filterMap_append, List.append_assoc]

theorem follow_gave (s : State α) (now : α) (event : Event) :
    Gave s [⟨.event event, now, s.presenter.paused⟩] (s.follow now event).state := by
  refine ⟨?_, ?_⟩
  · have hshowed := showed_follow s now event []
    cases event <;> exact hshowed
  · cases event with
    | draw mode frame =>
      exact (refresh_sounds s now mode frame).trans (List.append_nil _).symm
    | beep on => exact List.filterMap_append
    | quitAck => exact (List.append_nil _).symm
    | fault reason => exact (List.append_nil _).symm

-- Receiving takes the oldest message, if there is any, and gives out what follows from it.
theorem receive_gave (now : α) (s : State α) :
    Gave s (s.hearing now).toList (receive now s).state ∧
      s.link.toScreen.pending = (s.hearing now).toList.map Reception.message ++
        (receive now s).state.link.toScreen.pending := by
  unfold hearing
  rcases hp : s.link.toScreen.pending with _ | ⟨message, rest⟩
  · have hidle : (receive now s).state = s := by
      unfold receive
      cases hclosed : s.link.toScreen.closed with
      | true => simp only [Channel.receive, hp, hclosed, if_true, Turn.state]
      | false => simp only [Channel.receive_of_nil hp hclosed, Turn.state]
    rw [hidle, hp]
    exact ⟨(SameScreen.refl s).gave, rfl⟩
  · have htaken : Gave s [] s.taken := ⟨.of_eq rfl rfl, (List.append_nil _).symm⟩
    have hrest : s.taken.link.toScreen.pending = rest := by
      simp only [taken, hp, List.tail_cons]
    by_cases hevent : ∃ event, message = .event event
    · obtain ⟨event, rfl⟩ := hevent
      rw [receive_of_event hp]
      refine ⟨htaken.trans (follow_gave s.taken now event), ?_⟩
      rw [(follow_keeps s.taken now event).1, hrest]
      rfl
    · have hother : ∀ event, message ≠ .event event := fun event h => hevent ⟨event, h⟩
      rw [receive_of_other hp hother]
      refine ⟨?_, ?_⟩
      · cases message with
        | event event => exact absurd rfl (hother event)
        | control order => exact ⟨.of_eq rfl rfl, (List.append_nil _).symm⟩
        | text line => exact ⟨.of_eq rfl rfl, (List.append_nil _).symm⟩
      · exact congrArg (message :: ·) hrest.symm

-- One turn, on any channels.
theorem step_gave (s : State α) (input : Option InputEvent) (now : α) :
    Gave s (s.reception? input now).toList (s.step input now).state ∧
      s.link.toScreen.pending = (s.reception? input now).toList.map Reception.message ++
        (s.step input now).state.link.toScreen.pending := by
  have hheeded := heedInput_sameScreen s input
  unfold step reception?
  rcases hheed : s.heedInput input with t | t | ⟨t, cause⟩ <;> rw [hheed] at hheeded
  · obtain ⟨hgave, hpending⟩ := receive_gave now t
    refine ⟨hheeded.gave.trans hgave, ?_⟩
    rw [← hheeded.toScreen]
    exact hpending
  · exact ⟨hheeded.gave, (congrArg Channel.pending hheeded.toScreen).symm⟩
  · exact ⟨hheeded.gave, (congrArg Channel.pending hheeded.toScreen).symm⟩

end State

namespace Story

variable [Sub α] [LT α] [DecidableLT α] {r : Story α}

def started (refreshRate : RateLimiter α) : Story α := ⟨.started refreshRate, []⟩

theorem run_gave (r : Story α) (episodes : List (Episode α)) :
    ∃ receptions, (r.run episodes).received = r.received ++ receptions ∧
      State.Gave r.state receptions (r.run episodes).state ∧
      (receptions.map Reception.now).Sublist (clock episodes) := by
  induction episodes generalizing r with
  | nil => exact ⟨[], (List.append_nil _).symm, (State.SameScreen.refl _).gave, .refl _⟩
  | cons episode rest ih =>
    cases episode with
    | stepped input now =>
      obtain ⟨receptions, hreceived, hgave, hclock⟩ := ih (r.after (.stepped input now))
      refine ⟨(r.state.reception? input now).toList ++ receptions, ?_, ?_, ?_⟩
      · rw [← List.append_assoc]
        exact hreceived
      · exact (State.step_gave r.state input now).1.trans hgave
      · rw [List.map_append]
        exact (State.clock_after input now).append hclock
    | meddled link =>
      obtain ⟨receptions, hreceived, hgave, hclock⟩ := ih (r.after (.meddled link))
      have hmeddled : State.Gave r.state [] { r.state with link } :=
        ⟨.of_eq rfl rfl, (List.append_nil _).symm⟩
      exact ⟨receptions, hreceived, hmeddled.trans hgave, hclock⟩

end Story

theorem now_of_arrival {reception : Reception α} {a : Arrival α}
    (h : reception.arrival? = some a) : a.now = reception.now := by
  unfold Reception.arrival? Presenter.arrival? at h
  split at h
  · cases h
    rfl
  · cases h

theorem pictures_clock (receptions : List (Reception α)) :
    ((pictures receptions).map Arrival.now).Sublist (receptions.map Reception.now) := by
  induction receptions with
  | nil => exact .refl _
  | cons reception rest ih =>
    rw [pictures, List.filterMap_cons, List.map_cons]
    cases h : reception.arrival? with
    | none => exact ih.cons _
    | some a =>
      rw [List.map_cons, now_of_arrival h]
      exact ih.cons_cons _

section Limit

variable [Sub α] [LT α] [DecidableLT α]

theorem due_sublist (period last : α) (arrivals : List (Arrival α)) :
    (due period last arrivals).Sublist arrivals := by
  induction arrivals generalizing last with
  | nil => exact .refl _
  | cons a rest ih =>
    unfold due
    split
    · exact (ih last).cons a
    · exact (ih a.now).cons_cons a

-- The arrivals that are shown.
def presented (period last : α) (arrivals : List (Arrival α)) : List (Arrival α) :=
  (due period last arrivals).filter fun a => !a.paused

theorem presented_sublist (period last : α) (arrivals : List (Arrival α)) :
    (presented period last arrivals).Sublist arrivals :=
  List.filter_sublist.trans (due_sublist period last arrivals)

end Limit

section Exact

variable [AddCommGroup α] [LinearOrder α]

theorem letThrough_pictures (period last : α) (reception : Option (Reception α)) :
    letThrough period last (pictures reception.toList) =
      (pictures reception.toList).flatMap fun a =>
        if period ≤ a.now - last ∧ a.paused = false then [a.picture] else [] := by
  rcases reception with _ | reception
  · rfl
  · cases harrival : reception.arrival? with
    | none => simp [pictures, harrival, letThrough, due]
    | some a => simp [pictures, harrival, letThrough_singleton]

variable [IsOrderedAddMonoid α]

-- If the clock does not go back, what is due is a period later than the start.
theorem period_le_of_mem_due {period last : α} {arrivals : List (Arrival α)}
    (hclock : (arrivals.map Arrival.now).Pairwise (· ≤ ·)) {b : Arrival α}
    (hb : b ∈ due period last arrivals) : period ≤ b.now - last := by
  induction arrivals generalizing last with
  | nil => cases hb
  | cons a rest ih =>
    obtain ⟨hfirst, hrest⟩ := List.pairwise_cons.mp hclock
    unfold due at hb
    split at hb
    · exact ih hrest hb
    · next hdue =>
      rcases List.mem_cons.mp hb with rfl | hlater
      · exact not_lt.mp hdue
      · have hnow : a.now ≤ b.now :=
          hfirst b.now (List.mem_map_of_mem ((due_sublist _ _ _).mem hlater))
        calc period ≤ a.now - last := not_lt.mp hdue
          _ ≤ b.now - last := sub_le_sub_right hnow last

theorem due_apart {period last : α} {arrivals : List (Arrival α)}
    (hclock : (arrivals.map Arrival.now).Pairwise (· ≤ ·)) :
    (due period last arrivals).Pairwise fun a b => period ≤ b.now - a.now := by
  induction arrivals generalizing last with
  | nil => exact .nil
  | cons a rest ih =>
    have hrest := (List.pairwise_cons.mp hclock).2
    unfold due
    split
    · exact ih hrest
    · exact List.pairwise_cons.mpr ⟨fun b hb => period_le_of_mem_due hrest hb, ih hrest⟩

-- Of the pictures received those are shown, once and in their order, that arrive at least a period
-- after the limiter let one through, or was started, and when there is no pause. Two of them are at
-- least a period apart. The speaker is told of every beep received.
theorem outputs_of_received (refreshRate : RateLimiter α) (episodes : List (Episode α))
    (hclock : (refreshRate.tickedAt :: clock episodes).Pairwise (· ≤ ·)) :
    let r := (Story.started refreshRate).run episodes
    let arrivals := pictures r.received
    let chosen := presented refreshRate.period refreshRate.tickedAt arrivals
    shown r.state.outputs = chosen.map Arrival.picture ∧ chosen.Sublist arrivals ∧
      (chosen.Pairwise fun a b => refreshRate.period ≤ b.now - a.now) ∧
      sounds r.state.outputs = beeps r.received ∧
      r.state.presenter.refreshRate.tickedAt =
        periodStart refreshRate.period refreshRate.tickedAt arrivals ∧
      ∀ input now,
        let reception := (r.state.reception? input now).toList
        let t := (r.after (.stepped input now)).state
        r.state.link.toScreen.pending = reception.map Reception.message ++ t.link.toScreen.pending ∧
          shown t.outputs = shown r.state.outputs ++ (pictures reception).flatMap fun a =>
            if refreshRate.period ≤ a.now - r.state.presenter.refreshRate.tickedAt ∧
              a.paused = false then [a.picture] else [] := by
  intro r arrivals chosen
  obtain ⟨receptions, hreceived, hgave, hreadings⟩ :=
    Story.run_gave (Story.started refreshRate) episodes
  obtain rfl : receptions = r.received := hreceived.symm
  have harrivals : (arrivals.map Arrival.now).Pairwise (· ≤ ·) :=
    (List.pairwise_cons.mp hclock).2.sublist ((pictures_clock _).trans hreadings)
  refine ⟨hgave.showed.shown, presented_sublist _ _ _, (due_apart harrivals).filter _,
    hgave.sounded, hgave.showed.tickedAt, ?_⟩
  intro input now
  obtain ⟨hgiven, hpending⟩ := State.step_gave r.state input now
  have hshown := hgiven.showed.shown
  rw [show r.state.presenter.refreshRate.period = refreshRate.period from hgave.showed.period]
    at hshown
  exact ⟨hpending, hshown.trans (congrArg _ (letThrough_pictures _ _ _))⟩

end Exact

-- Pictures that come too early, when they are due, during a pause, and right after it. The channel
-- is closed behind them.
theorem outputs_of_received_paused :
    let strip (width : Nat) : Frame := ⟨width, 1, .dark⟩
    let draw (width : Nat) : Message := .event (.draw .standard (strip width))
    let link : Link :=
      ⟨.opened "ui->emu", ⟨"emu->ui", [draw 1, draw 2, .event (.beep true), draw 3, draw 4], true⟩⟩
    let episodes : List (Episode Int) :=
      [.meddled link, .stepped none 1, .stepped none 2, .stepped (some .togglePause) 3,
        .stepped none 4, .stepped (some .togglePause) 5, .stepped none 6]
    let r := (Story.started ⟨2, 0⟩).run episodes
    (0 :: clock episodes).Pairwise (· ≤ ·) ∧ (pictures r.received).map Arrival.now = [1, 2, 4, 5] ∧
      shown r.state.outputs = [(.standard, strip 2)] ∧ sounds r.state.outputs = [true] ∧
      r.state.presenter.refreshRate.tickedAt = 4 := by
  intro strip draw link episodes r
  have hclock : (0 :: clock episodes).Pairwise (· ≤ ·) := by decide
  obtain ⟨hshown, -, -, hsounds, hlast, -⟩ := outputs_of_received ⟨2, 0⟩ episodes hclock
  refine ⟨hclock, by decide +kernel, hshown.trans ?_, hsounds.trans ?_, hlast.trans ?_⟩
  · decide +kernel
  · decide +kernel
  · decide +kernel

end SuperChip.Presenter
