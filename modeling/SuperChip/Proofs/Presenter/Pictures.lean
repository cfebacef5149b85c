import SuperChip.Proofs.Presenter.Step

-- Which of the pictures that a presenter is sent are shown. A picture is looked at once, when it is
-- taken from the channel: it is either shown then or never.
namespace SuperChip.Presenter

-- What a presenter that takes turns goes through: it is sent something, or takes a turn.
inductive Happening (α : Type) where
  | sent (message : Message)
  | stepped (input : Option InputEvent) (now : α)

structure Arrival (α : Type) where
  mode : Mode
  frame : Frame
  now : α
  paused : Bool

variable {α : Type}

def Arrival.picture (a : Arrival α) : Mode × Frame := (a.mode, a.frame)

def shown (outputs : List Output) : List (Mode × Frame) :=
  outputs.filterMap fun
    | .show mode frame => some (mode, frame)
    | .sound _ => none

-- The picture that a turn takes, if the oldest message is one.
def arrival? (paused : Bool) (now : α) : List Message → Option (Arrival α)
  | .event (.draw mode frame) :: _ => some ⟨mode, frame, now, paused⟩
  | _ => none

-- The pictures that are taken while the happenings last, from what was waiting before.
def received (waiting : List Message) (paused : Bool) : List (Happening α) → List (Arrival α)
  | [] => []
  | .sent message :: rest => received (waiting ++ [message]) paused rest
  | .stepped input now :: rest =>
    (arrival? (pausedAfter paused input) now waiting).toList ++
      received waiting.tail (pausedAfter paused input) rest

-- The readings of the clock at which a pause ended.
def resumptions (paused : Bool) : List (Happening α) → List α
  | [] => []
  | .sent _ :: rest => resumptions paused rest
  | .stepped input now :: rest =>
    (if paused && !pausedAfter paused input then [now] else []) ++
      resumptions (pausedAfter paused input) rest

def readings (happenings : List (Happening α)) : List α :=
  happenings.filterMap fun
    | .sent _ => none
    | .stepped _ now => some now

section Limit

variable [Sub α] [LT α] [DecidableLT α]

-- The arrivals for which a picture was due. Each of them starts a new period, paused or not.
def due (period last : α) : List (Arrival α) → List (Arrival α)
  | [] => []
  | a :: rest =>
    if a.now - last < period then due period last rest else a :: due period a.now rest

-- When the period began that is running after the arrivals.
def periodStart (period last : α) (arrivals : List (Arrival α)) : α :=
  ((due period last arrivals).getLast?.map Arrival.now).getD last

def letThrough (period last : α) (arrivals : List (Arrival α)) : List (Mode × Frame) :=
  ((due period last arrivals).filter fun a => !a.paused).map Arrival.picture

end Limit

namespace State

def started (refreshRate : RateLimiter α) : State α := ⟨.fresh refreshRate, .fresh, [], []⟩

variable [Sub α] [LT α] [DecidableLT α]

def after (s : State α) : Happening α → State α
  | .sent message =>
    match s.link.toScreen.send message with
    | .ok toScreen => { s with link := { s.link with toScreen } }
    | .error _ => s
  | .stepped input now => (s.step input now).state

def run (s : State α) (happenings : List (Happening α)) : State α := happenings.foldl after s

end State

section Limit

variable [Sub α] [LT α] [DecidableLT α]

theorem due_append (period last : α) (first second : List (Arrival α)) :
    due period last (first ++ second) =
      due period last first ++ due period (periodStart period last first) second := by
  induction first generalizing last with
  | nil => rfl
  | cons a rest ih =>
    by_cases h : a.now - last < period
    · simp only [List.cons_append, due, h, if_true, ih, periodStart]
    · have hstart : periodStart period last (a :: rest) = periodStart period a.now rest := by
        simp only [periodStart, due, h, if_false, List.getLast?_cons, Option.map_some,
          Option.getD_some]
        cases (due period a.now rest).getLast? <;> rfl
      simp only [List.cons_append, due, h, if_false, ih, hstart]

theorem periodStart_append (period last : α) (first second : List (Arrival α)) :
    periodStart period last (first ++ second) =
      periodStart period (periodStart period last first) second := by
  unfold periodStart
  rw [due_append, List.getLast?_append]
  cases hlast : (due period (periodStart period last first) second).getLast? with
  | none =>
    unfold periodStart at hlast
    simp only [hlast, Option.none_or, Option.map_none, Option.getD_none]
  | some a =>
    unfold periodStart at hlast
    simp only [hlast, Option.some_or, Option.map_some, Option.getD_some]

theorem letThrough_append (period last : α) (first second : List (Arrival α)) :
    letThrough period last (first ++ second) =
      letThrough period last first ++
        letThrough period (periodStart period last first) second := by
  simp only [letThrough, due_append, List.filter_append, List.map_append]

theorem letThrough_singleton (period last : α) (a : Arrival α) :
    letThrough period last [a] =
      if ¬ a.now - last < period ∧ a.paused = false then [a.picture] else [] := by
  by_cases h : a.now - last < period
  · simp only [letThrough, due, h, if_true, not_true_eq_false, false_and, if_false,
      List.filter_nil, List.map_nil]
  · cases hp : a.paused <;>
      simp [letThrough, due, h, hp]

end Limit

namespace State

theorem shown_append (first second : List Output) :
    shown (first ++ second) = shown first ++ shown second := by
  simp only [shown, List.filterMap_append]

variable [Sub α] [LT α] [DecidableLT α] {s t u : State α}

-- What the limiter, the pause and the outputs of a presenter have become by some arrivals.
structure Showed (s : State α) (arrivals : List (Arrival α)) (t : State α) : Prop where
  period : t.presenter.refreshRate.period = s.presenter.refreshRate.period
  tickedAt : t.presenter.refreshRate.tickedAt =
    periodStart s.presenter.refreshRate.period s.presenter.refreshRate.tickedAt arrivals
  shown : shown t.outputs = shown s.outputs ++
    letThrough s.presenter.refreshRate.period s.presenter.refreshRate.tickedAt arrivals

theorem showed_refresh (s : State α) (now : α) (mode : Mode) (frame : Frame) :
    Showed s [⟨mode, frame, now, s.presenter.paused⟩] (s.refresh now mode frame) := by
  obtain ⟨⟨⟨period, tickedAt⟩, paused, quitSent, fault⟩, link, log, outputs⟩ := s
  by_cases hdue : now - tickedAt < period
  · constructor <;>
      simp [refresh, RateLimiter.poll, hdue, periodStart, due, letThrough_singleton]
  · cases paused <;> constructor <;>
      simp [refresh, RateLimiter.poll, hdue, periodStart, due, letThrough_singleton, give,
        shown_append, Arrival.picture]
    rfl

-- Everything but a picture leaves the limiter and the pictures as they are.
theorem Showed.of_eq (hr : t.presenter.refreshRate = s.presenter.refreshRate)
    (ho : Presenter.shown t.outputs = Presenter.shown s.outputs) : Showed s [] t := by
  refine ⟨by rw [hr], by rw [hr]; rfl, ?_⟩
  rw [ho]
  exact (List.append_nil _).symm

theorem Showed.trans {first second : List (Arrival α)} (h : Showed s first t)
    (h' : Showed t second u) : Showed s (first ++ second) u := by
  refine ⟨h'.period.trans h.period, ?_, ?_⟩
  · rw [h'.tickedAt, h.tickedAt, h.period, periodStart_append]
  · rw [h'.shown, h.shown, h.period, h.tickedAt, letThrough_append, List.append_assoc]

theorem showed_follow (s : State α) (now : α) (event : Event) (rest : List Message) :
    Showed s (arrival? s.presenter.paused now (.event event :: rest)).toList
      (s.follow now event).state := by
  cases event with
  | draw mode frame => exact showed_refresh s now mode frame
  | beep on => exact .of_eq rfl ((shown_append _ _).trans (List.append_nil _))
  | quitAck => exact .of_eq rfl rfl
  | fault reason => exact .of_eq rfl rfl

-- One turn. The oldest news is taken, and if it is a picture it arrives under the pause that the
-- input has left.
theorem showed_step (he : s.link.toEmulator.closed = false) (hs : s.link.toScreen.closed = false)
    (input : Option InputEvent) (now : α) :
    Showed s (arrival? (pausedAfter s.presenter.paused input) now s.link.toScreen.pending).toList
      (s.step input now).state := by
  simp only [step, heedInput_of_open he, Turn.andThen_goOn]
  rcases hp : s.link.toScreen.pending with _ | ⟨message, rest⟩
  · rw [receive_of_nil (by exact hp) (by exact hs)]
    exact .of_eq rfl rfl
  · by_cases hm : ∃ event, message = .event event
    · obtain ⟨event, rfl⟩ := hm
      rw [receive_of_event (by exact hp)]
      have hheed : Showed s [] (s.afterInput input).taken := .of_eq rfl rfl
      exact hheed.trans (showed_follow (s.afterInput input).taken now event rest)
    · have hm' : ∀ event, message ≠ .event event := fun event h => hm ⟨event, h⟩
      rw [receive_of_other (by exact hp) hm']
      cases message with
      | event event => exact absurd rfl (hm' event)
      | control order => exact .of_eq rfl rfl
      | text line => exact .of_eq rfl rfl

theorem step_keeps (he : s.link.toEmulator.closed = false) (hs : s.link.toScreen.closed = false)
    (input : Option InputEvent) (now : α) :
    (s.step input now).state.link = (s.afterInput input).taken.link ∧
      (s.step input now).state.presenter.paused = pausedAfter s.presenter.paused input := by
  simp only [step, heedInput_of_open he, Turn.andThen_goOn]
  rcases hp : s.link.toScreen.pending with _ | ⟨message, rest⟩
  · rw [receive_of_nil (by exact hp) (by exact hs), taken_of_nil (by exact hp)]
    exact ⟨rfl, rfl⟩
  · by_cases hm : ∃ event, message = .event event
    · obtain ⟨event, rfl⟩ := hm
      rw [receive_of_event (by exact hp)]
      exact follow_keeps (s.afterInput input).taken now event
    · rw [receive_of_other (by exact hp) fun event h => hm ⟨event, h⟩]
      exact ⟨rfl, rfl⟩

theorem after_sent (hs : s.link.toScreen.closed = false) (message : Message) :
    s.after (.sent message) =
      { s with link.toScreen := s.link.toScreen.added [message] } := by
  simp only [after, Channel.send_of_open hs]

theorem run_showed (he : s.link.toEmulator.closed = false) (hs : s.link.toScreen.closed = false)
    (happenings : List (Happening α)) :
    Showed s (received s.link.toScreen.pending s.presenter.paused happenings)
      (s.run happenings) := by
  induction happenings generalizing s with
  | nil => exact .of_eq rfl rfl
  | cons happening rest ih =>
    cases happening with
    | sent message =>
      have hrest := ih (s := s.after (.sent message)) (by rw [after_sent hs]; exact he)
        (by rw [after_sent hs]; exact hs)
      have hsent : Showed s [] (s.after (.sent message)) := by
        rw [after_sent hs]
        exact .of_eq rfl rfl
      have hreceived : received (s.after (.sent message)).link.toScreen.pending
          (s.after (.sent message)).presenter.paused rest =
            received s.link.toScreen.pending s.presenter.paused (.sent message :: rest) := by
        rw [after_sent hs]
        rfl
      rw [← hreceived]
      exact hsent.trans hrest
    | stepped input now =>
      obtain ⟨hlink, hpaused⟩ := step_keeps he hs input now
      have hrest := ih (s := s.after (.stepped input now)) (by simp only [after, hlink]; exact he)
        (by simp only [after, hlink]; exact hs)
      have htotal := (showed_step he hs input now).trans hrest
      simp only [after, hlink, hpaused] at htotal
      exact htotal

end State

section Law

variable [Sub α] [LT α] [DecidableLT α]

theorem shown_run (refreshRate : RateLimiter α) (happenings : List (Happening α)) :
    shown ((State.started refreshRate).run happenings).outputs =
      letThrough refreshRate.period refreshRate.tickedAt (received [] false happenings) := by
  have hrun := (State.run_showed (s := State.started refreshRate) rfl rfl happenings).shown
  exact hrun

-- The pictures that are shown, in their order, are those that arrive when they are due and there is
-- no pause. So of the last arrival it was decided for good whether it is the last one shown.
theorem last_picture_shown_or_dropped (refreshRate : RateLimiter α)
    (happenings : List (Happening α)) :
    let arrivals := received [] false happenings
    let pictures := shown ((State.started refreshRate).run happenings).outputs
    let allowed := letThrough refreshRate.period refreshRate.tickedAt
    pictures = allowed arrivals ∧
      ∀ earlier last, arrivals = earlier ++ [last] →
        let start := periodStart refreshRate.period refreshRate.tickedAt earlier
        if ¬ last.now - start < refreshRate.period ∧ last.paused = false then
          pictures.getLast? = some last.picture
        else pictures = allowed earlier := by
  intro arrivals pictures allowed
  have hshown : pictures = allowed arrivals := shown_run refreshRate happenings
  refine ⟨hshown, ?_⟩
  intro earlier last hlast start
  have hsplit : pictures = allowed earlier ++
      letThrough refreshRate.period start [last] := by
    rw [hshown, hlast]
    exact letThrough_append _ _ earlier [last]
  rw [letThrough_singleton] at hsplit
  split
  · next hlet => rw [hsplit, if_pos hlet, List.getLast?_concat]
  · next hlet => rw [hsplit, if_neg hlet, List.append_nil]

-- What one would wish for: when nothing is waiting and there is no pause, and a turn was taken a
-- period after the last arrival and after the last pause, the last arrival is the picture shown.
def ShowsLastPicture [LE α] (refreshRate : RateLimiter α) (happenings : List (Happening α)) :
    Prop :=
  let s := (State.started refreshRate).run happenings
  (refreshRate.tickedAt :: readings happenings).Pairwise (· ≤ ·) →
  s.presenter.paused = false → s.link.toScreen.pending = [] →
  ∀ earlier last, received [] false happenings = earlier ++ [last] →
    (∃ now ∈ readings happenings, refreshRate.period ≤ now - last.now ∧
      ∀ resumed ∈ resumptions false happenings, resumed < now) →
    (shown s.outputs).getLast? = some last.picture

end Law

def earlyFrame : Frame := ⟨128, 64, Canvas.dark.toggle 0 0⟩

-- A picture that comes within the first period, and a turn two periods later.
def earlyPicture : List (Happening Int) :=
  [.sent (.event (.draw .standard earlyFrame)), .stepped none 0, .stepped none 2]

theorem early_picture_lost :
    ¬ ∀ (refreshRate : RateLimiter Int) (happenings : List (Happening Int)),
      0 < refreshRate.period → ShowsLastPicture refreshRate happenings := by
  intro hall
  have hlast := hall ⟨1, 0⟩ earlyPicture (by decide) (by decide) rfl rfl []
    ⟨.standard, earlyFrame, 0, false⟩ rfl ⟨2, by decide, by decide, by decide⟩
  have hnothing :
      shown ((State.started (⟨1, 0⟩ : RateLimiter Int)).run earlyPicture).outputs = [] := rfl
  rw [hnothing] at hlast
  exact nomatch hlast

end SuperChip.Presenter
