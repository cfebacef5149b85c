import SuperChip.Proofs.Emulator.Parts
import SuperChip.Proofs.Machine.Picture
import SuperChip.Proofs.Session.History

-- What the screen has been sent of the picture. No pixel is lit that was not lit in the newest
-- picture sent, so that a screen that shows it misses at most pixels that went dark.
namespace SuperChip.Emulator

open Session (sent sent_added)

variable {α : Type}

-- What an emulator goes through: it takes a turn, or whoever else uses the channels leaves them in
-- some state.
inductive Happening (α : Type) where
  | stepped (cycleTime timerTime : α)
  | meddled (link : Link)

def pictures (messages : List Message) : List (Mode × Frame) :=
  messages.filterMap fun
    | .event (.draw mode frame) => some (mode, frame)
    | _ => none

theorem pictures_append (first second : List Message) :
    pictures (first ++ second) = pictures first ++ pictures second :=
  List.filterMap_append

-- The picture that an instruction leads to, if it changes it.
def newPictures (dice : Dice) (m : Machine) : List (Mode × Frame) :=
  if m.ChangesPicture dice then [((m.cycle dice).1.mode, (m.cycle dice).1.snapshot)] else []

-- The frame that is sent is the whole canvas as the instruction leaves it.
theorem mem_newPictures_iff {dice : Dice} {m : Machine} {picture : Mode × Frame} :
    picture ∈ newPictures dice m ↔
      m.ChangesPicture dice ∧
        picture = ((m.cycle dice).1.mode, ⟨128, 64, (m.cycle dice).1.canvas⟩) := by
  unfold newPictures
  by_cases hchanges : m.ChangesPicture dice
  · rw [if_pos hchanges, List.mem_singleton]
    exact ⟨fun h => ⟨hchanges, h⟩, fun h => h.2⟩
  · rw [if_neg hchanges]
    exact ⟨fun h => absurd h List.not_mem_nil, fun h => absurd h.1 hchanges⟩

-- The end of a turn by a channel that was closed.
def isRefused : Result α → Bool
  | .fail _ (.channel _) => true
  | _ => false

-- An emulator, all it has sent to the screen, and whether a channel has refused it anything.
structure Story (α : Type) where
  state : State α
  sent : List Message
  refused : Bool

namespace Story

def started (machine : Machine) (cycleRate timerRate : RateLimiter α) (link : Link) : Story α :=
  ⟨⟨.fresh machine cycleRate timerRate, link, []⟩, [], false⟩

variable [Sub α] [LT α] [DecidableLT α]

def after (dice : Dice) (r : Story α) : Happening α → Story α
  | .stepped cycleTime timerTime =>
    let result := r.state.step dice cycleTime timerTime
    { state := result.state
      sent := r.sent ++ Session.sent r.state.link.toScreen result.state.link.toScreen
      refused := r.refused || isRefused result }
  | .meddled link => { r with state.link := link }

def run (dice : Dice) (r : Story α) (happenings : List (Happening α)) : Story α :=
  happenings.foldl (after dice) r

end Story

namespace State

variable {s t u : State α}

-- The pictures that are sent in a part of a turn, and what is lit after it: what the last of them
-- shows, or what was lit before.
structure Shows (s : State α) (shown : List (Mode × Frame)) (t : State α) : Prop where
  redraw : t.emulator.machine.redraw = false
  toScreen : ∃ news, t.link.toScreen = s.link.toScreen.added news ∧ pictures news = shown
  lit : ∀ x y, t.emulator.machine.canvas.lit x y = true →
    (∃ picture ∈ shown.getLast?, picture.2.litAt x.val y.val = true) ∨
      shown = [] ∧ s.emulator.machine.canvas.lit x y = true

theorem Shows.trans {first second : List (Mode × Frame)} (h : Shows s first t)
    (h' : Shows t second u) : Shows s (first ++ second) u := by
  refine ⟨h'.redraw, ?_, ?_⟩
  · obtain ⟨news, htoScreen, rfl⟩ := h.toScreen
    obtain ⟨news', htoScreen', rfl⟩ := h'.toScreen
    refine ⟨news ++ news', ?_, pictures_append news news'⟩
    rw [htoScreen', htoScreen, Channel.added_added]
  · intro x y hlit
    rcases h'.lit x y hlit with ⟨picture, hlast, hshows⟩ | ⟨rfl, hbefore⟩
    · left
      refine ⟨picture, ?_, hshows⟩
      rw [List.getLast?_append, Option.mem_def.mp hlast]
      rfl
    · rw [List.append_nil]
      exact h.lit x y hbefore

theorem Shows.of_same {shown : List (Mode × Frame)} (h : Shows s shown t)
    (hlink : u.link.toScreen = s.link.toScreen)
    (hcanvas : u.emulator.machine.canvas = s.emulator.machine.canvas) : Shows u shown t :=
  ⟨h.redraw, hlink ▸ h.toScreen, hcanvas ▸ h.lit⟩

-- Parts of a turn that do not draw send no picture.
theorem Shows.of_sends {p : Event → Prop} (hsends : Sends p s t)
    (hp : ∀ mode frame, ¬ p (.draw mode frame)) (hr : t.emulator.machine.redraw = false)
    (hlit : t.emulator.machine.canvas.Within s.emulator.machine.canvas) : Shows s [] t := by
  obtain ⟨news, htoScreen, hkind⟩ := hsends.toScreen
  refine ⟨hr, ⟨_, htoScreen, filterMap_news ?_⟩, fun x y hon => .inr ⟨rfl, hlit x y hon⟩⟩
  intro event hevent
  cases event with
  | draw mode frame => exact absurd (hkind _ hevent) (hp mode frame)
  | _ => rfl

theorem Shows.idle (hlink : t.link = s.link) (hr : t.emulator.machine.redraw = false)
    (hlit : t.emulator.machine.canvas.Within s.emulator.machine.canvas) : Shows s [] t :=
  .of_sends (p := fun _ => False) (.of_link hlink) (fun _ _ => id) hr hlit

theorem answer_shows (hr : s.emulator.machine.redraw = false) (message : Option Message) :
    Shows s [] (s.answer message).state := by
  have hmachine := congrArg Emulator.machine (answer_emulator s message)
  have hafter : (s.emulator.afterOrder message).machine.redraw = false ∧
      (s.emulator.afterOrder message).machine.canvas.Within s.emulator.machine.canvas := by
    unfold afterOrder
    split
    · exact ⟨hr, .refl _⟩
    · exact ⟨hr, .refl _⟩
    · exact ⟨rfl, Canvas.dark_within _⟩
    · exact ⟨hr, .refl _⟩
  rw [← hmachine] at hafter
  exact .of_sends (answer_sends s message) (by simp) hafter.1 hafter.2

theorem publish_shows (hlink : t.link = s.link)
    (hwithin : t.emulator.machine.redraw = false →
      t.emulator.machine.canvas.Within s.emulator.machine.canvas)
    (hok : isRefused t.publish = false) :
    Shows s (if t.emulator.machine.redraw then
      [(t.emulator.machine.mode, t.emulator.machine.snapshot)] else []) t.publish.state := by
  rw [publish_eq] at hok ⊢
  cases hr : t.emulator.machine.redraw with
  | false => exact .idle hlink hr (hwithin hr)
  | true =>
    rw [hr, if_pos rfl] at hok
    rw [if_pos rfl, if_pos rfl]
    rcases send_cases t (.draw t.emulator.machine.mode t.emulator.machine.snapshot) with
      hsend | ⟨closed, hsend⟩
    · rw [hsend]
      refine ⟨rfl, ⟨[.event (.draw t.emulator.machine.mode t.emulator.machine.snapshot)], ?_, rfl⟩,
        fun x y hlit => .inl ⟨_, rfl, ?_⟩⟩
      · rw [← hlink]
        rfl
      · exact (Canvas.litAt_val _ x y).trans hlit
    · rw [hsend] at hok
      cases hok

theorem cycle_shows (dice : Dice) (hr : s.emulator.machine.redraw = false)
    (hok : isRefused (s.cycle dice) = false) :
    Shows s (newPictures dice s.emulator.machine) (s.cycle dice).state := by
  have hiff := Machine.redraw_cycle_iff dice hr
  have hwithin := Machine.cycle_within dice s.emulator.machine
  have hfault : ∀ fault, (s.emulator.machine.cycle dice).2 = some fault →
      (s.emulator.machine.cycle dice).1.redraw = s.emulator.machine.redraw :=
    fun _ hf => Machine.redraw_of_fault dice s.emulator.machine hf
  unfold State.cycle at hok ⊢
  simp only [newPictures, ← hiff]
  generalize s.emulator.machine.cycle dice = outcome at hwithin hfault hok ⊢
  obtain ⟨m, fault⟩ := outcome
  rcases fault with _ | fault
  · exact publish_shows (s := s) (t := (s.note s.emulator.machine.cycleNotes).withMachine m) rfl
      hwithin hok
  · have hsame : m.redraw = false := (hfault fault rfl).trans hr
    simp only [hsame, Bool.false_eq_true, if_false]
    cases fault with
    | unknownWord word address =>
      have hsends := giveUp_sends ((s.note s.emulator.machine.cycleNotes).withMachine m) word address
      have hmachine := congrArg Emulator.machine (giveUp_emulator
        ((s.note s.emulator.machine.cycleNotes).withMachine m) word address)
      refine .of_sends (p := IsFault) ⟨hsends.toEmulator, hsends.toScreen⟩ (by simp [IsFault]) ?_ ?_
      · rw [hmachine]
        exact hsame
      · rw [hmachine]
        exact hwithin hsame
    | _ => exact .idle rfl hsame (hwithin hsame)

theorem tick_shows (hr : s.emulator.machine.redraw = false) : Shows s [] s.tick.state := by
  have hmachine := congrArg Emulator.machine (tick_emulator s)
  refine .of_sends (tick_sends s) (by simp [IsBeep]) ?_ ?_
  · rw [hmachine]
    exact hr
  · rw [hmachine]
    exact .refl _

-- A turn that is not refused anything has no part that is.
theorem isRefused_andThen {result : Result α} {f : State α → Result α}
    (hok : isRefused (result.andThen f) = false) :
    isRefused result = false ∧ ∀ t, result = .goOn t → isRefused (f t) = false := by
  cases result with
  | goOn t =>
    refine ⟨rfl, ?_⟩
    intro u hu
    cases hu
    exact hok
  | stop t =>
    refine ⟨rfl, ?_⟩
    intro u hu
    cases hu
  | fail t cause =>
    refine ⟨hok, ?_⟩
    intro u hu
    cases hu

theorem receive_shows (hr : s.emulator.machine.redraw = false) (hok : isRefused s.receive = false) :
    Shows s [] s.receive.state := by
  rw [receive_eq] at hok ⊢
  rcases hreceive : s.link.toEmulator.receive with closed | ⟨message, toEmulator⟩
  · rw [hreceive] at hok
    cases hok
  · have hshows := answer_shows (s := { s with link.toEmulator := toEmulator }) hr message
    exact hshows.of_same rfl rfl

variable [Sub α] [LT α] [DecidableLT α]

-- The machine that executes an instruction in a turn, if any does.
def instructed (cycleTime : α) (s : State α) : Option Machine :=
  match s.receive with
  | .goOn t => if t.cycleRuns cycleTime then some t.emulator.machine else none
  | _ => none

theorem whenCycleDue_shows (dice : Dice) (now : α) (hr : s.emulator.machine.redraw = false)
    (hok : isRefused (s.whenCycleDue now (cycle dice)) = false) :
    Shows s (if s.cycleRuns now then newPictures dice s.emulator.machine else [])
      (s.whenCycleDue now (cycle dice)).state := by
  rw [whenCycleDue_eq] at hok ⊢
  cases hruns : s.cycleRuns now with
  | true =>
    rw [hruns] at hok
    exact (cycle_shows (s := s.cyclePolled now) dice hr hok).of_same rfl rfl
  | false => exact .idle rfl hr (.refl _)

theorem whenTimerDue_shows (now : α) (hr : s.emulator.machine.redraw = false) :
    Shows s [] (s.whenTimerDue now tick).state := by
  rw [whenTimerDue_eq]
  split
  · exact (tick_shows (s := s.timerPolled now) hr).of_same rfl rfl
  · exact .idle rfl hr (.refl _)

theorem step_shows (dice : Dice) (cycleTime timerTime : α) (hr : s.emulator.machine.redraw = false)
    (hok : isRefused (s.step dice cycleTime timerTime) = false) :
    Shows s ((s.instructed cycleTime).toList.flatMap (newPictures dice))
      (s.step dice cycleTime timerTime).state := by
  obtain ⟨hokCycle, -⟩ := isRefused_andThen hok
  obtain ⟨hokReceive, hokDue⟩ := isRefused_andThen hokCycle
  have hreceived := receive_shows hr hokReceive
  refine Turn.state_andThen
    (p := Shows s ((s.instructed cycleTime).toList.flatMap (newPictures dice))) ?_ ?_
  · unfold instructed
    cases hreceive : s.receive with
    | goOn t =>
      rw [hreceive] at hreceived
      have hcycle := whenCycleDue_shows dice cycleTime (s := t) hreceived.redraw (hokDue t hreceive)
      have hboth := hreceived.trans hcycle
      rw [Turn.andThen_goOn]
      cases hruns : t.cycleRuns cycleTime with
      | true => simpa [hruns] using hboth
      | false => simpa [hruns] using hboth
    | stop t =>
      rw [hreceive] at hreceived
      exact hreceived
    | fail t cause =>
      rw [hreceive] at hreceived
      exact hreceived
  · intro t ht
    have hboth := ht.trans (whenTimerDue_shows timerTime ht.redraw)
    rwa [List.append_nil] at hboth

-- Nothing but its instruction changes the picture in the rest of a turn.
theorem step_instructed (dice : Dice) {cycleTime : α} {m : Machine}
    (hm : s.instructed cycleTime = some m) (timerTime : α) :
    let m' := (s.step dice cycleTime timerTime).state.emulator.machine
    m'.mode = (m.cycle dice).1.mode ∧ m'.canvas = (m.cycle dice).1.canvas := by
  let p (u : State α) : Prop := u.emulator.machine.mode = (m.cycle dice).1.mode ∧
    u.emulator.machine.canvas = (m.cycle dice).1.canvas
  unfold instructed at hm
  cases hreceive : s.receive with
  | goOn t =>
    simp only [hreceive] at hm
    split at hm
    · next hruns =>
      cases hm
      refine Turn.state_andThen (p := p) ?_ ?_
      · rw [hreceive, Turn.andThen_goOn, whenCycleDue_eq, if_pos hruns]
        obtain ⟨redraw, fault, hemulator⟩ := cycle_emulator dice (t.cyclePolled cycleTime)
        simp only [p, hemulator]
        exact ⟨rfl, rfl⟩
      · intro u hu
        rw [whenTimerDue_eq]
        split
        · simp only [p, tick_emulator]
          exact hu
        · exact hu
    · cases hm
  | stop t =>
    rw [hreceive] at hm
    cases hm
  | fail t cause =>
    rw [hreceive] at hm
    cases hm

end State

namespace Story

variable {r : Story α}

-- What is lit was sent, and no change waits to be sent.
structure Published (r : Story α) : Prop where
  redraw : r.state.emulator.machine.redraw = false
  lit : ∀ x y, r.state.emulator.machine.canvas.lit x y = true →
    ∃ picture ∈ (pictures r.sent).getLast?, picture.2.litAt x.val y.val = true

theorem Published.of_shows {shown : List (Mode × Frame)} {t : State α} (h : Published r)
    (hshows : State.Shows r.state shown t) :
    pictures (Session.sent r.state.link.toScreen t.link.toScreen) = shown ∧
      Published ⟨t, r.sent ++ Session.sent r.state.link.toScreen t.link.toScreen, false⟩ := by
  obtain ⟨news, htoScreen, rfl⟩ := hshows.toScreen
  have hnews : Session.sent r.state.link.toScreen t.link.toScreen = news := by
    rw [htoScreen, sent_added]
  rw [hnews]
  refine ⟨rfl, hshows.redraw, ?_⟩
  intro x y hlit
  rw [pictures_append, List.getLast?_append]
  rcases hshows.lit x y hlit with ⟨picture, hlast, hon⟩ | ⟨hnone, hbefore⟩
  · refine ⟨picture, ?_, hon⟩
    rw [Option.mem_def.mp hlast]
    rfl
  · rw [hnone]
    exact h.lit x y hbefore

theorem started_published {machine : Machine} {rom : Array UInt8}
    (hload : Machine.powerOn.load rom = .ok machine) (cycleRate timerRate : RateLimiter α)
    (link : Link) : Published (started machine cycleRate timerRate link) := by
  unfold Machine.load at hload
  split at hload
  · cases hload
  · cases hload
    refine ⟨rfl, ?_⟩
    intro x y hlit
    exact absurd hlit (by simp [started, Emulator.fresh, Machine.withRom, Machine.powerOn, Canvas.lit_dark])

variable [Sub α] [LT α] [DecidableLT α]

theorem after_published (dice : Dice) (h : r.refused = false → Published r)
    (happening : Happening α) :
    (r.after dice happening).refused = false → Published (r.after dice happening) := by
  cases happening with
  | stepped cycleTime timerTime =>
    intro hrefused
    obtain ⟨hbefore, hok⟩ := Bool.or_eq_false_iff.mp hrefused
    have hshows := State.step_shows dice cycleTime timerTime (h hbefore).redraw hok
    have hafter := ((h hbefore).of_shows hshows).2
    exact ⟨hafter.redraw, hafter.lit⟩
  | meddled link =>
    intro hrefused
    exact ⟨(h hrefused).redraw, (h hrefused).lit⟩

theorem run_published (dice : Dice) (h : r.refused = false → Published r)
    (happenings : List (Happening α)) :
    (r.run dice happenings).refused = false → Published (r.run dice happenings) := by
  induction happenings generalizing r with
  | nil => exact h
  | cons happening rest ih => exact ih (after_published dice h happening)

-- Whatever is ordered, as long as the channels take what is sent: nothing lit is missing from the
-- newest picture sent, and each turn sends the picture its instruction has changed, and no other.
-- What it sends is the canvas that it leaves, in the mode that it leaves.
theorem canvas_published (dice : Dice) {machine : Machine} {rom : Array UInt8}
    (hload : Machine.powerOn.load rom = .ok machine) (cycleRate timerRate : RateLimiter α)
    (link : Link) (happenings : List (Happening α)) :
    let r := (started machine cycleRate timerRate link).run dice happenings
    r.refused = false →
      r.state.emulator.machine.redraw = false ∧
      (∀ x y, r.state.emulator.machine.canvas.lit x y = true →
        ∃ picture ∈ (pictures r.sent).getLast?, picture.2.litAt x.val y.val = true) ∧
      ∀ cycleTime timerTime,
        isRefused (r.state.step dice cycleTime timerTime) = false →
          let after := (r.state.step dice cycleTime timerTime).state
          let shown := pictures (Session.sent r.state.link.toScreen after.link.toScreen)
          shown = (r.state.instructed cycleTime).toList.flatMap (newPictures dice) ∧
            ∀ picture ∈ shown, picture =
              (after.emulator.machine.mode, ⟨128, 64, after.emulator.machine.canvas⟩) := by
  intro r hrefused
  have hpublished : Published r :=
    run_published dice (fun _ => started_published hload cycleRate timerRate link) happenings
      hrefused
  refine ⟨hpublished.redraw, hpublished.lit, ?_⟩
  intro cycleTime timerTime hok after shown
  have hshown : shown = (r.state.instructed cycleTime).toList.flatMap (newPictures dice) :=
    (hpublished.of_shows (State.step_shows dice cycleTime timerTime hpublished.redraw hok)).1
  refine ⟨hshown, ?_⟩
  intro picture hpicture
  rw [hshown] at hpicture
  obtain ⟨m, hm, hnew⟩ := List.mem_flatMap.mp hpicture
  obtain ⟨hmode, hcanvas⟩ := State.step_instructed dice (Option.mem_toList.mp hm) timerTime
  rw [hmode, hcanvas]
  exact (mem_newPictures_iff.mp hnew).2

-- A program that draws the first row of the digit 0, and the turn after the one in which it does.
theorem canvas_published_digit :
    let rom : Array UInt8 := #[0xD0, 0x01]
    let machine := Machine.powerOn.withRom rom
    let dice : Dice := fun _ => 0
    let r := (started machine ⟨(1 : Int), 0⟩ ⟨1, 0⟩ .fresh).run dice [.stepped 1 1]
    let step := r.state.step dice 2 2
    Machine.powerOn.load rom = .ok machine ∧ r.refused = false ∧
      r.state.emulator.machine.canvas.lit 0 0 = true ∧ isRefused step = false ∧
      (∃ picture ∈ (pictures r.sent).getLast?, picture.2.litAt 0 0 = true) ∧
      pictures (Session.sent r.state.link.toScreen step.state.link.toScreen) =
        (r.state.instructed 2).toList.flatMap (newPictures dice) := by
  intro rom machine dice r step
  have hload : Machine.powerOn.load rom = .ok machine := rfl
  obtain ⟨hrefused, hlit, hok⟩ : r.refused = false ∧
      r.state.emulator.machine.canvas.lit 0 0 = true ∧ isRefused step = false := by
    decide +kernel
  obtain ⟨-, hshown, hsent⟩ :=
    canvas_published dice hload ⟨(1 : Int), 0⟩ ⟨1, 0⟩ .fresh [.stepped 1 1] hrefused
  exact ⟨hload, hrefused, hlit, hok, hshown 0 0 hlit, (hsent 2 2 hok).1⟩

end Story

end SuperChip.Emulator
