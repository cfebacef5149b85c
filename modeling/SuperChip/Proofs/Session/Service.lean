import SuperChip.Proofs.Emulator.Parts
import SuperChip.Proofs.Session.Sound

-- The emulation side from its start to its end, whoever it works for. Others may send it anything,
-- close the channel to it and take its news away, all of it at any time. Only the channel to the
-- screen is left for itself to close.
namespace SuperChip.Session

-- Why the loop comes to its end.
inductive Ending where
  | told
  | stuck (fault : Fault)
  | cutOff
  deriving DecidableEq

-- The news it ends with.
def Ending.news : Ending → List Event
  | told => [.quitAck]
  | stuck fault => [.fault fault.message]
  | cutOff => []

-- The message that was taken but not acted on yet.
def EmulatorStage.inHand : EmulatorStage → List Message
  | answering message => message.toList
  | _ => []

-- A message acted on, and the emulator before and after.
structure Deed (α : Type) where
  before : Emulator α
  message : Message
  after : Emulator α

structure Service (α : Type) where
  race : Race α
  -- what was sent to the emulator, from before the start on
  ordered : List Message
  deeds : List (Deed α)
  ending : Option Ending

namespace Service

inductive Move (α : Type) where
  | emulator (now : α)
  | order (message : Message)
  | cutOff
  | collect

variable {α : Type}

-- Keypads that are sent have all their keys.
def Move.IsWhole : Move α → Prop
  | order message => message.IsWhole
  | _ => True

-- Of the session only the emulation side takes part.
def started (machine : Machine) (cycleRate timerRate : RateLimiter α) (presenter : Presenter α)
    (link : Link) : Service α :=
  let session := Session.fresh (.fresh machine cycleRate timerRate) presenter
  ⟨⟨{ session with link }, .starting, .starting, []⟩, link.toEmulator.pending, [], none⟩

def order (message : Message) (s : Service α) : Service α :=
  match s.race.session.link.toEmulator.send message with
  | .ok toEmulator =>
    { s with race.session.link.toEmulator := toEmulator, ordered := s.ordered ++ [message] }
  | .error _ => s

def cutOff (s : Service α) : Service α :=
  { s with race.session.link.toEmulator := s.race.session.link.toEmulator.close }

def collect (s : Service α) : Service α :=
  match s.race.session.link.toScreen.receive with
  | .ok (_, toScreen) => { s with race.session.link.toScreen := toScreen }
  | .error _ => s

-- The messages acted on, those that are still to be acted on, and the news, oldest first.
def obeyed (s : Service α) : List Message := s.deeds.map Deed.message

def inHand (s : Service α) : List Message := s.race.emulatorAt.inHand

def waiting (s : Service α) : List Message := s.inHand ++ s.race.session.link.toEmulator.pending

def news (s : Service α) : List Message := messages reported s.race.history

section Moves

variable [Sub α] [LT α] [DecidableLT α]

-- Whether the next part of the loop is its last, and why: nothing is left of a channel that was
-- closed, an order to quit was taken, or the word at the program counter is no instruction.
def endingNext (dice : Dice) (now : α) (s : Service α) : Option Ending :=
  let e := s.race.session.emulatorState
  match s.race.emulatorAt with
  | .listening => match e.link.toEmulator.receive with
    | .error _ => some .cutOff
    | .ok _ => none
  | .answering message => if message = some (.control .quit) then some .told else none
  | .cycling => if e.cycleRuns now then (e.emulator.machine.cycle dice).2.map .stuck else none
  | _ => none

def emulatorMove (dice : Dice) (now : α) (s : Service α) : Service α :=
  let race := s.race.emulatorMove dice now
  { s with
    race
    deeds := s.deeds ++ s.inHand.map (⟨s.race.session.emulator, ·, race.session.emulator⟩)
    ending := s.ending.or (s.endingNext dice now) }

def move (dice : Dice) (s : Service α) : Move α → Service α
  | .emulator now => s.emulatorMove dice now
  | .order message => s.order message
  | .cutOff => s.cutOff
  | .collect => s.collect

def run (dice : Dice) (s : Service α) (moves : List (Move α)) : Service α :=
  moves.foldl (move dice) s

end Moves

-- What has become of the orders, and what the emulator holds against itself.
def Settled (fault : Option Failure) (toEmulator : Channel Message) (obeyed : List Message) :
    Option Ending → Prop
  | none => fault = none ∧ .control .quit ∉ obeyed
  | some .told => fault = none ∧
      ∃ earlier, obeyed = earlier ++ [.control .quit] ∧ .control .quit ∉ earlier
  | some (.stuck cause) => fault = some (.machine cause) ∧ .control .quit ∉ obeyed ∧
      ∃ word address, Instruction.ofWord? word = none ∧ cause = .unknownWord word address
  | some .cutOff => fault = some (.channel (.receiving toEmulator.name)) ∧
      .control .quit ∉ obeyed ∧ toEmulator.closed = true ∧ toEmulator.pending = []

-- A closed channel to the emulator stays as it is.
theorem Settled.of_toEmulator {fault : Option Failure} {c c' : Channel Message}
    {obeyed : List Message} {ending : Option Ending} (h : Settled fault c obeyed ending)
    (hclosed : c.closed = true → c' = c) : Settled fault c' obeyed ending := by
  rcases ending with _ | _ | cause | _
  · exact h
  · exact h
  · exact h
  · rw [hclosed h.2.2.1]
    exact h

-- News of no end, and then those of the end that the loop has come to, if it has.
def StreamsTo (ending : Option Ending) (news : List Message) : Prop :=
  ∃ plain : List Event, (∀ event ∈ plain, ¬ event.IsEnd) ∧
    news = (plain ++ ending.elim [] Ending.news).map .event

theorem StreamsTo.append {ending : Option Ending} {old : List Message} {news : List Event}
    (h : StreamsTo none old)
    (hnews : ending = none ∧ (∀ event ∈ news, ¬ event.IsEnd) ∨ news = ending.elim [] Ending.news) :
    StreamsTo ending (old ++ news.map .event) := by
  obtain ⟨plain, hplain, rfl⟩ := h
  rw [Option.elim_none, List.append_nil, ← List.map_append]
  rcases hnews with ⟨rfl, hnews⟩ | rfl
  · refine ⟨plain ++ news, ?_, by rw [Option.elim_none, List.append_nil]⟩
    intro event hevent
    rcases List.mem_append.mp hevent with hold | hnew
    · exact hplain event hold
    · exact hnews event hnew
  · exact ⟨plain, hplain, rfl⟩

structure Orderly (s : Service α) : Prop extends s.race.Runs where
  screen : s.race.emulatorAt ≠ .ended → s.race.session.link.toScreen.closed = false
  ended : s.race.emulatorAt = .ended →
    s.race.session.emulator.running = false ∧ s.race.session.link.toScreen.closed = true
  whole : ∀ message ∈ s.waiting, message.IsWhole
  accounted : s.obeyed ++ s.waiting = s.ordered
  acted : ∀ deed ∈ s.deeds, deed.after = deed.before.afterOrder (some deed.message)
  isOver_eq : s.race.emulatorAt.isOver = s.ending.isSome
  stream : StreamsTo s.ending s.news
  settled : Settled s.race.session.emulator.fault s.race.session.link.toEmulator s.obeyed s.ending

variable {s : Service α}

theorem started_orderly {machine : Machine} (hm : machine.WellFormed)
    (cycleRate timerRate : RateLimiter α) (presenter : Presenter α) {link : Link}
    (hopen : link.toScreen.closed = false)
    (hwhole : ∀ message ∈ link.toEmulator.pending, message.IsWhole) :
    Orderly (started machine cycleRate timerRate presenter link) where
  machine := hm
  running := fun hbegun => absurd rfl hbegun
  screen := fun _ => hopen
  ended := by
    intro hat
    cases hat
  whole := hwhole
  accounted := rfl
  acted := fun _ hdeed => absurd hdeed List.not_mem_nil
  isOver_eq := rfl
  stream := ⟨[], fun _ hevent => absurd hevent List.not_mem_nil, rfl⟩
  settled := ⟨rfl, List.not_mem_nil⟩

theorem Orderly.order (h : Orderly s) {message : Message} (hwhole : message.IsWhole) :
    Orderly (s.order message) := by
  cases hclosed : s.race.session.link.toEmulator.closed with
  | true =>
    have hsame : s.order message = s := by
      simp only [Service.order, Channel.send, hclosed, if_true]
    rw [hsame]
    exact h
  | false =>
    have hwaiting : (s.order message).waiting = s.waiting ++ [message] := by
      simp only [Service.order, Channel.send_of_open hclosed, waiting, inHand,
        Channel.pending_added, List.append_assoc]
    simp only [Service.order, Channel.send_of_open hclosed] at hwaiting ⊢
    refine { h with whole := ?_, accounted := ?_, settled := ?_ }
    · rw [hwaiting]
      intro other hother
      rcases List.mem_append.mp hother with hold | hnew
      · exact h.whole other hold
      · rwa [List.mem_singleton.mp hnew]
    · rw [hwaiting, ← h.accounted, List.append_assoc]
      rfl
    · exact h.settled.of_toEmulator fun hc => absurd (hclosed.symm.trans hc) Bool.false_ne_true

theorem Orderly.cutOff (h : Orderly s) : Orderly s.cutOff := by
  refine { h with settled := h.settled.of_toEmulator ?_ }
  intro hclosed
  simp only [Service.cutOff, Channel.close, ← hclosed]

theorem Orderly.collect (h : Orderly s) : Orderly s.collect := by
  unfold Service.collect
  rcases hreceive : s.race.session.link.toScreen.receive with closed | ⟨message, toScreen⟩
  · exact h
  · have hclosed : toScreen.closed = s.race.session.link.toScreen.closed :=
      (Channel.receive_ok hreceive).1
    exact { h with
      screen := fun hat => hclosed.trans (h.screen hat)
      ended := fun hat => ⟨(h.ended hat).1, hclosed.trans (h.ended hat).2⟩ }

theorem inHand_emulatorPart (r : Race α) (did : List Happening) {next : EmulatorStage}
    (result : Emulator.Result α) (hnext : next.inHand = []) :
    (r.emulatorPart did next result).emulatorAt.inHand = [] := by
  simp only [Race.emulatorPart]
  split
  · exact hnext
  · rfl

theorem news_emulatorPart (r : Race α) {did : List Happening} (next : EmulatorStage)
    {result : Emulator.Result α} {news : List Event} (hwork : ∀ x ∈ did, x.IsWork)
    (kept : Emulator.State.Kept r.session.emulatorState news (emulatorBlamed result)) :
    messages reported (r.emulatorPart did next result).history =
      messages reported r.history ++ news.map .event := by
  rw [(emulatorPart_adds r next hwork kept).messages_eq, messages_append, reported_workOf hwork,
    messages_failures fun _ => rfl, List.append_nil]

theorem blamed_of_proceeds {e : Emulator.State α} {fault : Option Fault}
    {result : Emulator.Result α} (h : Emulator.State.Proceeds e fault result) :
    emulatorBlamed result = result.state := by
  cases h <;> rfl

theorem Orderly.ending_eq (h : Orderly s) (hat : s.race.emulatorAt.isOver = false) :
    s.ending = none := by
  have hover := h.isOver_eq
  rw [hat] at hover
  exact Option.isNone_iff_eq_none.mp (Option.isSome_eq_false_iff.mp hover.symm)

theorem Orderly.unsettled (h : Orderly s) (hat : s.race.emulatorAt.isOver = false) :
    s.race.session.emulator.fault = none ∧ .control .quit ∉ s.obeyed := by
  have hsettled := h.settled
  rw [h.ending_eq hat] at hsettled
  exact hsettled

theorem acted_of_free (hhand : s.inHand = []) {e : Emulator α} :
    ∀ message ∈ s.inHand, e = s.race.session.emulator.afterOrder (some message) := by
  rw [hhand]
  exact fun _ hmessage => absurd hmessage List.not_mem_nil

theorem Orderly.answer_proceeds (h : Orderly s) {message : Option Message}
    (hstage : s.race.emulatorAt = .answering message) :
    Emulator.State.Proceeds s.race.session.emulatorState none
      (s.race.session.emulatorState.answer message) := by
  refine Emulator.State.answer_proceeds h.machine (h.screen (by simp [hstage])) ?_
  intro order horder
  refine h.whole order (List.mem_append_left _ ?_)
  rw [inHand, hstage]
  exact Option.mem_toList.mpr horder

variable [Sub α] [LT α] [DecidableLT α] {dice : Dice} {now : α}

theorem obeyed_emulatorMove (dice : Dice) (now : α) (s : Service α) :
    (s.emulatorMove dice now).obeyed = s.obeyed ++ s.inHand := by
  simp [obeyed, Service.emulatorMove, Function.comp_def]

-- Nothing but the message in hand is lost of what waits.
theorem waiting_emulatorMove {did : List Happening} {next : EmulatorStage}
    {result : Emulator.Result α}
    (hmove : s.race.emulatorMove dice now = s.race.emulatorPart did next result)
    (htoEmulator : (emulatorBlamed result).link.toEmulator = s.race.session.link.toEmulator)
    (hnext : next.inHand = []) : s.waiting = s.inHand ++ (s.emulatorMove dice now).waiting := by
  have hhand : (s.emulatorMove dice now).inHand = [] := by
    simp only [inHand, Service.emulatorMove, hmove]
    exact inHand_emulatorPart s.race did result hnext
  have hpending : (s.emulatorMove dice now).race.session.link.toEmulator =
      s.race.session.link.toEmulator := by
    simp only [Service.emulatorMove, hmove]
    exact htoEmulator
  rw [waiting, waiting, hhand, hpending, List.nil_append]

-- A part of the loop keeps order if it goes on with news of no end, or comes to an end with the
-- news of that end.
theorem Orderly.emulatorPart (h : Orderly s) (hbegun : s.race.emulatorAt ≠ .starting)
    (hat : s.race.emulatorAt.isOver = false) {did : List Happening} {next : EmulatorStage}
    {result : Emulator.Result α} {news : List Event} {ending : Option Ending}
    (hmove : s.race.emulatorMove dice now = s.race.emulatorPart did next result)
    (hending : s.endingNext dice now = ending)
    (kept : Emulator.State.Kept s.race.session.emulatorState news (emulatorBlamed result))
    (hwork : ∀ x ∈ did, x.IsWork) (hnext : next.isOver = false)
    (hgoes : goesOn result = ending.isNone)
    (hwaiting : s.waiting = s.inHand ++ (s.emulatorMove dice now).waiting)
    (hacted : ∀ message ∈ s.inHand, (emulatorBlamed result).emulator =
      s.race.session.emulator.afterOrder (some message))
    (hnews : ending = none ∧ (∀ event ∈ news, ¬ event.IsEnd) ∨ news = ending.elim [] Ending.news)
    (hsettled : Settled (emulatorBlamed result).emulator.fault
      (emulatorBlamed result).link.toEmulator (s.obeyed ++ s.inHand) ending) :
    Orderly (s.emulatorMove dice now) := by
  have hrace : (s.emulatorMove dice now).race = s.race.emulatorPart did next result := hmove
  have hnow : (s.emulatorMove dice now).ending = ending := by
    simp only [Service.emulatorMove, h.ending_eq hat, hending, Option.none_or]
  have hstage := isOver_emulatorPart s.race did hnext result
  have hended := ne_ended_emulatorPart s.race did hnext result
  constructor
  case toRuns =>
    rw [hrace]
    exact h.toRuns.emulatorPart hbegun hat did next kept
  case screen =>
    intro _
    rw [hrace, (emulatorPart_adds s.race next hwork kept).screenClosed]
    refine h.screen ?_
    intro hover
    rw [hover] at hat
    cases hat
  case ended =>
    rw [hrace]
    exact fun hover => absurd hover hended
  case whole =>
    intro message hmessage
    refine h.whole message ?_
    rw [hwaiting]
    exact List.mem_append_right _ hmessage
  case accounted =>
    rw [obeyed_emulatorMove, List.append_assoc, ← hwaiting]
    exact h.accounted
  case acted =>
    intro deed hdeed
    rcases List.mem_append.mp hdeed with hold | hnew
    · exact h.acted deed hold
    · obtain ⟨message, hmessage, rfl⟩ := List.mem_map.mp hnew
      rw [hmove]
      exact hacted message hmessage
  case isOver_eq =>
    rw [hrace, hnow, hstage, hgoes]
    exact Option.not_isNone ending
  case stream =>
    have hstream := h.stream
    rw [h.ending_eq hat] at hstream
    rw [hnow, Service.news, hrace, news_emulatorPart s.race next hwork kept]
    exact hstream.append hnews
  case settled =>
    rw [hnow, obeyed_emulatorMove, hrace]
    exact hsettled

-- A part that acts on no message goes on, unless it finds a word that is no instruction.
theorem Orderly.works (h : Orderly s) (hbegun : s.race.emulatorAt ≠ .starting)
    (hat : s.race.emulatorAt.isOver = false) {did : List Happening} {next : EmulatorStage}
    {result : Emulator.Result α} {fault : Option Fault} {p : Event → Prop}
    (hmove : s.race.emulatorMove dice now = s.race.emulatorPart did next result)
    (hending : s.endingNext dice now = fault.map .stuck)
    (hresult : Emulator.State.Proceeds s.race.session.emulatorState fault result)
    (hsends : Emulator.State.Sends p s.race.session.emulatorState result.state)
    (hp : ¬ p .quitAck) (hwork : ∀ x ∈ did, x.IsWork) (hnext : next.isOver = false)
    (hhand : s.inHand = []) (hfree : next.inHand = [])
    (hunknown : ∀ word address, fault = some (.unknownWord word address) →
      Instruction.ofWord? word = none) :
    Orderly (s.emulatorMove dice now) := by
  obtain ⟨hfault, hquit⟩ := h.unsettled hat
  rw [← blamed_of_proceeds hresult] at hsends
  have hwaiting := waiting_emulatorMove hmove hsends.toEmulator hfree
  have hobeyed : s.obeyed ++ s.inHand = s.obeyed := by rw [hhand, List.append_nil]
  rw [← hobeyed] at hquit
  cases hresult with
  | goOn kept same plain =>
    exact h.emulatorPart hbegun hat hmove hending kept hwork hnext rfl hwaiting
      (acted_of_free hhand) (.inl ⟨rfl, plain⟩) ⟨same.trans hfault, hquit⟩
  | quit kept same => exact absurd (hsends.forall_of_added kept.toScreen _ List.mem_cons_self) hp
  | fault kept noted =>
    exact h.emulatorPart hbegun hat hmove hending kept hwork hnext rfl hwaiting
      (acted_of_free hhand) (.inr rfl) ⟨noted, hquit, _, _, hunknown _ _ rfl, rfl⟩

theorem Orderly.cycling (h : Orderly s) (hstage : s.race.emulatorAt = .cycling) :
    Orderly (s.emulatorMove dice now) := by
  have hat : s.race.emulatorAt.isOver = false := by rw [hstage]; rfl
  have hopen := h.screen (by simp [hstage])
  have hcycle := Emulator.State.whenCycleDue_proceeds (s := s.race.session.emulatorState) dice
    h.machine hopen now
  have hending : s.endingNext dice now =
      (if s.race.session.emulatorState.cycleRuns now then
        (s.race.session.emulatorState.emulator.machine.cycle dice).2 else none).map .stuck := by
    simp only [endingNext, hstage]
    split <;> rfl
  refine h.works (by simp [hstage]) hat (by simp only [Race.emulatorMove, hstage]; rfl) hending
    hcycle (Emulator.State.whenCycleDue_sends dice s.race.session.emulatorState now) ?_ ?_ rfl
    (by rw [inHand, hstage]; rfl) rfl ?_
  · rintro (⟨mode, frame, heq⟩ | ⟨reason, heq⟩) <;> cases heq
  · split <;> simp [Happening.IsWork]
  · intro word address hfault
    split at hfault
    · obtain ⟨hunknown, heq⟩ := Machine.fault_execute dice h.machine hfault
      cases heq
      exact hunknown
    · cases hfault

theorem Orderly.ticking (h : Orderly s) (hstage : s.race.emulatorAt = .ticking) :
    Orderly (s.emulatorMove dice now) := by
  have hat : s.race.emulatorAt.isOver = false := by rw [hstage]; rfl
  have hopen := h.screen (by simp [hstage])
  have htick := Emulator.State.whenTimerDue_proceeds (s := s.race.session.emulatorState) h.machine
    hopen now
  have hending : s.endingNext dice now = (none : Option Fault).map .stuck := by
    simp only [endingNext, hstage]
    rfl
  refine h.works (by simp [hstage]) hat (by simp only [Race.emulatorMove, hstage]; rfl) hending
    htick (Emulator.State.whenTimerDue_sends s.race.session.emulatorState now) ?_ ?_ rfl
    (by rw [inHand, hstage]; rfl) rfl nofun
  · rintro ⟨on, heq⟩
    cases heq
  · split <;> simp [Happening.IsWork]

theorem Orderly.answered (h : Orderly s) {message : Option Message}
    (hstage : s.race.emulatorAt = .answering message) {result : Emulator.Result α}
    (hresult : s.race.session.emulatorState.answer message = result) {news : List Event}
    {ending : Option Ending} (hending : s.endingNext dice now = ending)
    (kept : Emulator.State.Kept s.race.session.emulatorState news (emulatorBlamed result))
    (hgoes : goesOn result = ending.isNone)
    (hnews : ending = none ∧ (∀ event ∈ news, ¬ event.IsEnd) ∨ news = ending.elim [] Ending.news)
    (hsettled : Settled (emulatorBlamed result).emulator.fault
      (emulatorBlamed result).link.toEmulator (s.obeyed ++ message.toList) ending) :
    Orderly (s.emulatorMove dice now) := by
  have hmove : s.race.emulatorMove dice now = s.race.emulatorPart [] .cycling result := by
    simp only [Race.emulatorMove, hstage, hresult]
  have hhand : s.inHand = message.toList := by rw [inHand, hstage]; rfl
  have hblamed : emulatorBlamed result = result.state :=
    blamed_of_proceeds (hresult ▸ h.answer_proceeds hstage)
  have hemulator := Emulator.State.answer_emulator s.race.session.emulatorState message
  have hsends := Emulator.State.answer_sends s.race.session.emulatorState message
  rw [hresult, ← hblamed] at hemulator hsends
  refine h.emulatorPart (by simp [hstage]) (by rw [hstage]; rfl) hmove hending kept (by simp) rfl
    hgoes (waiting_emulatorMove hmove hsends.toEmulator rfl) ?_ hnews (hhand ▸ hsettled)
  intro order horder
  rw [hhand, Option.mem_toList] at horder
  rw [hemulator, horder]
  rfl

theorem Orderly.answering (h : Orderly s) {message : Option Message}
    (hstage : s.race.emulatorAt = .answering message) : Orderly (s.emulatorMove dice now) := by
  have hopen : s.race.session.emulatorState.link.toScreen.closed = false :=
    h.screen (by simp [hstage])
  obtain ⟨hfault, hnever⟩ := h.unsettled (by rw [hstage]; rfl)
  have hanswer := h.answer_proceeds hstage
  by_cases hquit : message = some (.control .quit)
  · subst hquit
    have hresult : s.race.session.emulatorState.answer (some (.control .quit)) =
        .stop (s.race.session.emulatorState.reporting [.quitAck]) := by
      simp only [Emulator.State.answer, Emulator.State.obey, Emulator.State.send_of_open hopen,
        Turn.andThen_goOn]
    have hending : s.endingNext dice now = some .told := by
      simp only [endingNext, hstage, if_true]
    rw [hresult] at hanswer
    cases hanswer with
    | quit kept same =>
      exact h.answered hstage hresult hending kept rfl (.inr rfl)
        ⟨same.trans hfault, s.obeyed, rfl, hnever⟩
  · obtain ⟨t, hresult⟩ := Emulator.State.answer_goesOn s.race.session.emulatorState hquit
    have hending : s.endingNext dice now = none := by
      simp only [endingNext, hstage, hquit, if_false]
    rw [hresult] at hanswer
    cases hanswer with
    | goOn kept same plain =>
      refine h.answered hstage hresult hending kept rfl (.inl ⟨rfl, plain⟩)
        ⟨same.trans hfault, ?_⟩
      rw [List.mem_append, Option.mem_toList]
      exact fun hmem => hmem.elim hnever hquit

theorem Orderly.listening (h : Orderly s) (hstage : s.race.emulatorAt = .listening) :
    Orderly (s.emulatorMove dice now) := by
  have hat : s.race.emulatorAt.isOver = false := by rw [hstage]; rfl
  have hbegun : s.race.emulatorAt ≠ .starting := by simp [hstage]
  have hrunning : s.race.session.emulatorState.emulator.running = true := h.running hbegun hat
  have hhand : s.inHand = [] := by rw [inHand, hstage]; rfl
  obtain ⟨hfault, hquit⟩ := h.unsettled hat
  have hobeyed : s.obeyed ++ s.inHand = s.obeyed := by rw [hhand, List.append_nil]
  rw [← hobeyed] at hquit
  rcases hreceive : s.race.session.emulatorState.link.toEmulator.receive with
    closed | ⟨message, toEmulator⟩
  · have hmove : s.race.emulatorMove dice now = s.race.emulatorPart [] .listening
        (.fail s.race.session.emulatorState (.channel closed)) := by
      simp only [Race.emulatorMove, hstage, hrunning, if_true, hreceive]
    have hending : s.endingNext dice now = some .cutOff := by
      simp only [endingNext, hstage, hreceive]
    obtain ⟨rfl, hpending⟩ := Channel.eq_of_receive_error hreceive
    have hclosed := Channel.closed_of_receive_error hreceive
    exact h.emulatorPart hbegun hat hmove hending
      ⟨h.machine, rfl, (Channel.added_nil _).symm, rfl, List.Subset.refl _⟩ (by simp) rfl rfl
      (waiting_emulatorMove hmove rfl rfl) (acted_of_free hhand) (.inr rfl)
      ⟨rfl, hquit, hclosed, hpending⟩
  · have hmove : s.race.emulatorMove dice now = s.race.emulatorPart [] (.answering message)
        (.goOn { s.race.session.emulatorState with
          link := { s.race.session.emulatorState.link with toEmulator } }) := by
      simp only [Race.emulatorMove, hstage, hrunning, if_true, hreceive]
    have hending : s.endingNext dice now = none := by
      simp only [endingNext, hstage, hreceive]
    obtain ⟨hclosed, hsubset, -⟩ := Channel.receive_ok hreceive
    have hwaiting : s.waiting = s.inHand ++ (s.emulatorMove dice now).waiting := by
      have hpending : s.race.session.link.toEmulator.pending =
          message.toList ++ toEmulator.pending := Channel.pending_of_receive hreceive
      rw [waiting, hpending]
      simp only [waiting, inHand, Service.emulatorMove, hmove]
      rfl
    have kept : Emulator.State.Kept s.race.session.emulatorState []
        { s.race.session.emulatorState with
          link := { s.race.session.emulatorState.link with toEmulator } } :=
      ⟨h.machine, rfl, (Channel.added_nil _).symm, hclosed, hsubset⟩
    exact h.emulatorPart hbegun hat hmove hending kept (by simp) rfl rfl hwaiting
      (acted_of_free hhand) (.inl ⟨rfl, by simp⟩) ⟨hfault, hquit⟩

-- Beginning and finishing change nothing of what was sent, taken or reported.
theorem Orderly.starting (h : Orderly s) (hstage : s.race.emulatorAt = .starting) :
    Orderly (s.emulatorMove dice now) := by
  obtain ⟨⟨session, stage, presenterAt, history⟩, ordered, deeds, ending⟩ := s
  cases hstage
  have hopen : session.link.toScreen.closed = false := h.screen EmulatorStage.noConfusion
  simp only [Service.emulatorMove, Race.emulatorMove, endingNext, inHand, EmulatorStage.inHand,
    List.map_nil, List.append_nil, Option.or_none]
  exact { h with
    machine := h.machine
    running := fun _ _ => rfl
    screen := fun _ => hopen
    ended := by
      intro hended
      cases hended
    settled := h.settled }

theorem Orderly.closing (h : Orderly s) (hstage : s.race.emulatorAt = .closing) :
    Orderly (s.emulatorMove dice now) := by
  obtain ⟨⟨session, stage, presenterAt, history⟩, ordered, deeds, ending⟩ := s
  cases hstage
  simp only [Service.emulatorMove, Race.emulatorMove, endingNext, inHand, EmulatorStage.inHand,
    List.map_nil, List.append_nil, Option.or_none]
  exact { h with
    machine := h.machine
    running := by
      intro _ hover
      cases hover
    screen := fun hat => absurd rfl hat
    ended := fun _ => ⟨rfl, rfl⟩
    settled := h.settled }

theorem Orderly.emulatorMove (h : Orderly s) (dice : Dice) (now : α) :
    Orderly (s.emulatorMove dice now) := by
  cases hstage : s.race.emulatorAt with
  | starting => exact h.starting hstage
  | listening => exact h.listening hstage
  | answering message => exact h.answering hstage
  | cycling => exact h.cycling hstage
  | ticking => exact h.ticking hstage
  | closing => exact h.closing hstage
  | ended =>
    have hsame : s.emulatorMove dice now = s := by
      simp only [Service.emulatorMove, Race.emulatorMove, endingNext, inHand, hstage,
        EmulatorStage.inHand, List.map_nil, List.append_nil, Option.or_none]
    rw [hsame]
    exact h

theorem Orderly.move (h : Orderly s) (dice : Dice) {move : Move α} (hwhole : move.IsWhole) :
    Orderly (s.move dice move) := by
  cases move with
  | emulator now => exact h.emulatorMove dice now
  | order message => exact h.order hwhole
  | cutOff => exact h.cutOff
  | collect => exact h.collect

theorem Orderly.run (h : Orderly s) (dice : Dice) (moves : List (Move α))
    (hwhole : ∀ move ∈ moves, move.IsWhole) : Orderly (s.run dice moves) := by
  induction moves generalizing s with
  | nil => exact h
  | cons move rest ih =>
    obtain ⟨hmove, hrest⟩ := List.forall_mem_cons.mp hwhole
    exact ih (h.move dice hmove) hrest

end Service

end SuperChip.Session
