import SuperChip.Proofs.Session.Interleaving

-- What a history tells of the messages of a session, and how the emulation side comes to its end.
namespace SuperChip.Session

-- Work that sends and receives nothing.
def Happening.IsWork : Happening → Prop
  | .executed _ => True
  | .ticked => True
  | _ => False

def Happening.IsEmulation : Happening → Prop
  | .executed _ => True
  | .ticked => True
  | .reported _ => True
  | _ => False

def ordered : Happening → Option Message
  | .ordered message => some message
  | _ => none

def reported : Happening → Option Message
  | .reported message => some message
  | _ => none

def heard : Happening → Option Message
  | .heard message => some message
  | _ => none

def messages (pick : Happening → Option Message) (history : List Happening) : List Message :=
  history.filterMap pick

-- Why the emulation side has ended: it was told to, or the instruction just executed was none.
inductive Reason : List Happening → Message → Option Failure → Prop where
  | quit (before : List Happening) : Reason before (.event .quitAck) none
  | fault (before : List Happening) (word : UInt16) (address : Int) :
      Reason (before ++ [.executed (some (.unknownWord word address))])
        (.event (.fault (Fault.unknownWord word address).message))
        (some (.machine (.unknownWord word address)))

-- The emulation side has reported its end, which was its first, and has done nothing since.
def Concluded (history : List Happening) (fault : Option Failure) : Prop :=
  ∃ before last after, history = before ++ .reported last :: after ∧
    Reason before last fault ∧ (∀ message ∈ messages reported before, ¬ message.IsEnd) ∧
    ∀ x ∈ after, ¬ x.IsEmulation

-- Where either side is with the end: nothing is wrong and no end was reported, or heard, or it has
-- come to it.
def Concluding (history : List Happening) (fault : Option Failure) : Bool → Prop
  | false => fault = none ∧ ∀ message ∈ messages reported history, ¬ message.IsEnd
  | true => Concluded history fault

def Hearing (history : List Happening) (fault : Option String) : Bool → Prop
  | false => fault = none ∧ ∀ message ∈ messages heard history, ¬ message.IsEnd
  | true => ∃ last, (messages heard history).getLast? = some last ∧ last.IsEnd ∧
      (last = .event .quitAck → fault = none)

-- What parts of the two sides' turns add to the history.
def workOf (did : List Happening) (news : List Event) : List Happening :=
  did ++ (news.map Message.event).map .reported

def exchangeOf (orders : List Control) (news : List Message) : List Happening :=
  (orders.map Message.control).map .ordered ++ news.map .heard

section Messages

variable {pick : Happening → Option Message}

theorem messages_append (pick : Happening → Option Message) (first second : List Happening) :
    messages pick (first ++ second) = messages pick first ++ messages pick second :=
  List.filterMap_append

theorem messages_eq_nil {history : List Happening} (h : ∀ x ∈ history, pick x = none) :
    messages pick history = [] := List.filterMap_eq_nil_iff.mpr h

theorem messages_map {f : Message → Happening} (h : ∀ message, pick (f message) = some message)
    (sent : List Message) : messages pick (sent.map f) = sent := by
  have hid : pick ∘ f = some := funext h
  rw [messages, List.filterMap_map, hid, List.filterMap_some]

theorem messages_map_eq_nil {f : Message → Happening} (h : ∀ message, pick (f message) = none)
    (sent : List Message) : messages pick (sent.map f) = [] := by
  refine messages_eq_nil ?_
  intro x hx
  obtain ⟨message, -, rfl⟩ := List.mem_map.mp hx
  exact h message

end Messages

theorem eq_none_of_isWork {x : Happening} (h : x.IsWork) :
    ordered x = none ∧ reported x = none ∧ heard x = none := by
  cases x with
  | executed fault => exact ⟨rfl, rfl, rfl⟩
  | ticked => exact ⟨rfl, rfl, rfl⟩
  | _ => cases h

section Work

variable {did : List Happening} (hwork : ∀ x ∈ did, x.IsWork) (news : List Event)

include hwork

theorem ordered_workOf : messages ordered (workOf did news) = [] := by
  have hdid : messages ordered did = [] :=
    messages_eq_nil fun x hx => (eq_none_of_isWork (hwork x hx)).1
  rw [workOf, messages_append, hdid, messages_map_eq_nil fun _ => rfl, List.nil_append]

theorem heard_workOf : messages heard (workOf did news) = [] := by
  have hdid : messages heard did = [] :=
    messages_eq_nil fun x hx => (eq_none_of_isWork (hwork x hx)).2.2
  rw [workOf, messages_append, hdid, messages_map_eq_nil fun _ => rfl, List.nil_append]

theorem reported_work : messages reported did = [] :=
  messages_eq_nil fun x hx => (eq_none_of_isWork (hwork x hx)).2.1

theorem reported_workOf : messages reported (workOf did news) = news.map .event := by
  rw [workOf, messages_append, reported_work hwork, messages_map fun _ => rfl, List.nil_append]

theorem failed_notMem_workOf (cause : Failure) : .failed cause ∉ workOf did news := by
  intro hx
  rcases List.mem_append.mp hx with hdid | hnews
  · exact hwork _ hdid
  · simp at hnews

-- The first report of an end, after which nothing was done yet.
theorem concluded_workOf {history : List Happening} {last : Event} {fault : Option Failure}
    (hplain : ∀ message ∈ messages reported history, ¬ message.IsEnd)
    (hreason : Reason (history ++ did) (.event last) fault) :
    Concluded (history ++ workOf did [last]) fault := by
  refine ⟨history ++ did, .event last, [], ?_, hreason, ?_, ?_⟩
  · simp only [workOf, List.map_cons, List.map_nil, List.append_assoc]
  · rw [messages_append, reported_work hwork, List.append_nil]
    exact hplain
  · simp

end Work

section Exchange

variable (orders : List Control) (news : List Message)

theorem ordered_exchangeOf : messages ordered (exchangeOf orders news) = orders.map .control := by
  rw [exchangeOf, messages_append, messages_map fun _ => rfl, messages_map_eq_nil fun _ => rfl,
    List.append_nil]

theorem reported_exchangeOf : messages reported (exchangeOf orders news) = [] := by
  rw [exchangeOf, messages_append, messages_map_eq_nil fun _ => rfl,
    messages_map_eq_nil fun _ => rfl, List.nil_append]

theorem heard_exchangeOf : messages heard (exchangeOf orders news) = news := by
  rw [exchangeOf, messages_append, messages_map_eq_nil fun _ => rfl, messages_map fun _ => rfl,
    List.nil_append]

theorem failed_notMem_exchangeOf (cause : Failure) : .failed cause ∉ exchangeOf orders news := by
  simp [exchangeOf]

variable {orders news}

theorem not_isEmulation_of_mem_exchangeOf {x : Happening} (hx : x ∈ exchangeOf orders news) :
    ¬ x.IsEmulation := by
  simp only [exchangeOf, List.mem_append, List.mem_map] at hx
  rcases hx with ⟨message, -, rfl⟩ | ⟨message, -, rfl⟩
  · exact id
  · exact id

end Exchange

section Conclusion

variable {history more before after : List Happening} {last : Message} {fault : Option Failure}

theorem Concluded.append (h : Concluded history fault) (hmore : ∀ x ∈ more, ¬ x.IsEmulation) :
    Concluded (history ++ more) fault := by
  obtain ⟨before, last, after, rfl, hreason, hplain, hstill⟩ := h
  refine ⟨before, last, after ++ more, by simp, hreason, hplain, ?_⟩
  intro x hx
  rcases List.mem_append.mp hx with hold | hnew
  · exact hstill x hold
  · exact hmore x hnew

theorem reported_of_still (hafter : ∀ x ∈ after, ¬ x.IsEmulation) :
    messages reported (before ++ .reported last :: after) =
      messages reported before ++ [last] := by
  have hnone : messages reported after = [] := by
    refine messages_eq_nil ?_
    intro x hx
    cases x with
    | reported message => exact absurd trivial (hafter _ hx)
    | _ => rfl
  have hlast : messages reported (.reported last :: after) = last :: messages reported after := rfl
  rw [messages_append, hlast, hnone]

-- What the other side adds is no matter to the end that was reported, or heard.
theorem Concluding.append_exchangeOf {isOver : Bool} (h : Concluding history fault isOver)
    (orders : List Control) (news : List Message) :
    Concluding (history ++ exchangeOf orders news) fault isOver := by
  cases isOver with
  | false =>
    refine ⟨h.1, ?_⟩
    rw [messages_append, reported_exchangeOf, List.append_nil]
    exact h.2
  | true => exact Concluded.append h fun x hx => not_isEmulation_of_mem_exchangeOf hx

theorem Hearing.append_workOf {reason : Option String} {isOver : Bool} {did : List Happening}
    (h : Hearing history reason isOver) (hwork : ∀ x ∈ did, x.IsWork) (news : List Event) :
    Hearing (history ++ workOf did news) reason isOver := by
  have hheard : messages heard (history ++ workOf did news) = messages heard history := by
    rw [messages_append, heard_workOf hwork, List.append_nil]
  cases isOver with
  | false =>
    refine ⟨h.1, ?_⟩
    rw [hheard]
    exact h.2
  | true =>
    unfold Hearing
    rw [hheard]
    exact h

theorem Concluding.append_workOf {did : List Happening} {news : List Event}
    (h : Concluding history fault false) (hwork : ∀ x ∈ did, x.IsWork)
    (hplain : ∀ event ∈ news, ¬ event.IsEnd) :
    Concluding (history ++ workOf did news) fault false := by
  refine ⟨h.1, ?_⟩
  rw [messages_append, reported_workOf hwork]
  intro message hmessage
  rcases List.mem_append.mp hmessage with hold | hnew
  · exact h.2 message hold
  · obtain ⟨event, hevent, rfl⟩ := List.mem_map.mp hnew
    exact hplain event hevent

theorem Hearing.append_exchangeOf {reason : Option String} {news : List Message}
    (h : Hearing history reason false) (orders : List Control)
    (hplain : ∀ message ∈ news, ¬ message.IsEnd) :
    Hearing (history ++ exchangeOf orders news) reason false := by
  refine ⟨h.1, ?_⟩
  rw [messages_append, heard_exchangeOf]
  intro message hmessage
  rcases List.mem_append.mp hmessage with hold | hnew
  · exact h.2 message hold
  · exact hplain message hnew

theorem hearing_of_end {reason : Option String} (history : List Happening)
    (orders : List Control) {last : Message} (hend : last.IsEnd)
    (hreason : last = .event .quitAck → reason = none) :
    Hearing (history ++ exchangeOf orders [last]) reason true := by
  refine ⟨last, ?_, hend, hreason⟩
  rw [messages_append, heard_exchangeOf]
  exact List.getLast?_concat

theorem Concluded.exists_end (h : Concluded history fault) :
    ∃ last ∈ messages reported history, last.IsEnd := by
  obtain ⟨before, last, after, rfl, hreason, -, hstill⟩ := h
  refine ⟨last, ?_, ?_⟩
  · rw [reported_of_still hstill]
    exact List.mem_append_right _ List.mem_cons_self
  · cases hreason <;> trivial

-- The end is heard after everything else that was reported.
theorem eq_of_end_heard {plain first waiting : List Message} {final : Message}
    (hsplit : plain ++ [last] = first ++ waiting)
    (hplain : ∀ message ∈ plain, ¬ message.IsEnd)
    (hfinal : first.getLast? = some final) (hend : final.IsEnd) : final = last := by
  rcases List.eq_nil_or_concat waiting with rfl | ⟨rest, newest, rfl⟩
  · rw [List.append_nil] at hsplit
    rw [← hsplit, List.getLast?_concat] at hfinal
    exact (Option.some.inj hfinal).symm
  · rw [List.concat_eq_append, ← List.append_assoc] at hsplit
    obtain ⟨hinit, -⟩ := List.append_inj' hsplit rfl
    have hmem : final ∈ plain := by
      rw [hinit]
      exact List.mem_append_left _ (List.mem_of_getLast? hfinal)
    exact absurd hend (hplain final hmem)

end Conclusion

section Addition

variable {α : Type} {r r' : Race α} {more : List Happening}

theorem messages_failures {σ : Type} {pick : Happening → Option Message}
    (h : ∀ cause, pick (.failed cause) = none) (result : Turn σ Failure) :
    messages pick (failures result) = [] := by
  cases result with
  | fail s cause => exact messages_eq_nil fun x hx => List.mem_singleton.mp hx ▸ h cause
  | _ => rfl

theorem sent_added (c : Channel Message) (sending : List Message) :
    sent c (c.added sending) = sending := by
  simp only [sent, Channel.pending_added, List.drop_left]

theorem taken_append {before after : Channel Message} {news : List Message}
    (h : before.pending = news ++ after.pending) : taken before after = news := by
  simp [taken, h]

-- What a part of either side's turn adds to the history, and what becomes of the channels by it:
-- what is sent goes in at the end, what is heard comes out in front, and nothing is closed.
structure Race.Adds (r : Race α) (more : List Happening) (r' : Race α) : Prop where
  history : r'.history = r.history ++ more
  toScreen : r.session.link.toScreen.pending ++ messages reported more =
    messages heard more ++ r'.session.link.toScreen.pending
  toEmulator : r'.session.link.toEmulator.pending ⊆
    r.session.link.toEmulator.pending ++ messages ordered more
  screenClosed : r'.session.link.toScreen.closed = r.session.link.toScreen.closed
  emulatorClosed : r'.session.link.toEmulator.closed = r.session.link.toEmulator.closed

theorem Race.Adds.messages_eq (h : r.Adds more r') (pick : Happening → Option Message) :
    messages pick r'.history = messages pick r.history ++ messages pick more := by
  rw [h.history, messages_append]

theorem Race.Adds.reports (h : r.Adds more r')
    (hold : messages reported r.history =
      messages heard r.history ++ r.session.link.toScreen.pending) :
    messages reported r'.history =
      messages heard r'.history ++ r'.session.link.toScreen.pending := by
  rw [h.messages_eq, h.messages_eq, hold, List.append_assoc, h.toScreen, List.append_assoc]

theorem Race.Adds.forall_toEmulator {p : Message → Prop} (h : r.Adds more r')
    (hold : ∀ message ∈ r.session.link.toEmulator.pending, p message)
    (hnew : ∀ message ∈ messages ordered more, p message) :
    ∀ message ∈ r'.session.link.toEmulator.pending, p message := by
  intro message hmessage
  rcases List.mem_append.mp (h.toEmulator hmessage) with hwaiting | hadded
  · exact hold message hwaiting
  · exact hnew message hadded

theorem Race.Adds.failed_notMem (h : r.Adds more r') (hold : ∀ cause, .failed cause ∉ r.history)
    (hnew : ∀ cause, .failed cause ∉ more) : ∀ cause, .failed cause ∉ r'.history := by
  intro cause hx
  rw [h.history] at hx
  rcases List.mem_append.mp hx with hbefore | hadded
  · exact hold cause hbefore
  · exact hnew cause hadded

theorem emulatorPart_adds (r : Race α) {did : List Happening} (next : EmulatorStage)
    {result : Emulator.Result α} {news : List Event} (hwork : ∀ x ∈ did, x.IsWork)
    (kept : Emulator.State.Kept r.session.emulatorState news (emulatorBlamed result)) :
    r.Adds (workOf did news ++ failures result) (r.emulatorPart did next result) := by
  have htoScreen : (emulatorBlamed result).link.toScreen =
      r.session.link.toScreen.added (news.map .event) := kept.toScreen
  have hsent : sent r.session.link.toScreen (emulatorBlamed result).link.toScreen =
      news.map .event := by
    rw [htoScreen]
    exact sent_added _ _
  refine ⟨?_, ?_, ?_, ?_, kept.toEmulator⟩
  · simp only [Race.emulatorPart, withEmulator, hsent, List.append_assoc, workOf]
  · rw [messages_append, messages_append, reported_workOf hwork, heard_workOf hwork,
      messages_failures fun _ => rfl, messages_failures fun _ => rfl, List.append_nil]
    exact (congrArg Channel.pending htoScreen).symm
  · rw [messages_append, ordered_workOf hwork, messages_failures fun _ => rfl, List.append_nil,
      List.append_nil]
    exact kept.orders
  · exact (congrArg Channel.closed htoScreen).trans (Channel.closed_added _ _)

theorem presenterPart_adds (r : Race α) (next : PresenterStage) {result : Presenter.Result α}
    {orders : List Control} {news : List Message}
    (hemulator : (presenterBlamed result).link.toEmulator =
      r.session.link.toEmulator.added (orders.map .control))
    (hclosed : (presenterBlamed result).link.toScreen.closed = r.session.link.toScreen.closed)
    (hnews : r.session.link.toScreen.pending =
      news ++ (presenterBlamed result).link.toScreen.pending) :
    r.Adds (exchangeOf orders news ++ failures result) (r.presenterPart next result) := by
  have hsent : sent r.session.link.toEmulator (presenterBlamed result).link.toEmulator =
      orders.map .control := by
    rw [hemulator]
    exact sent_added _ _
  refine ⟨?_, ?_, ?_, hclosed, ?_⟩
  · simp only [Race.presenterPart, withPresenter, hsent, taken_append hnews, List.append_assoc,
      exchangeOf]
  · rw [messages_append, messages_append, reported_exchangeOf, heard_exchangeOf,
      messages_failures fun _ => rfl, messages_failures fun _ => rfl, List.append_nil,
      List.append_nil, List.append_nil]
    exact hnews
  · rw [messages_append, ordered_exchangeOf, messages_failures fun _ => rfl, List.append_nil]
    rw [show (r.presenterPart next result).session.link.toEmulator = _ from hemulator]
    exact List.Subset.refl _
  · exact (congrArg Channel.closed hemulator).trans (Channel.closed_added _ _)

-- The machine is in order, and once the emulation side has begun it runs until its turn is the last.
structure Race.Runs (r : Race α) : Prop where
  machine : r.session.emulator.machine.WellFormed
  running : r.emulatorAt ≠ .starting → r.emulatorAt.isOver = false →
    r.session.emulator.running = true

theorem Race.Runs.emulatorPart (h : r.Runs) (hbegun : r.emulatorAt ≠ .starting)
    (hat : r.emulatorAt.isOver = false) (did : List Happening) (next : EmulatorStage)
    {result : Emulator.Result α} {news : List Event}
    (kept : Emulator.State.Kept r.session.emulatorState news (emulatorBlamed result)) :
    (r.emulatorPart did next result).Runs :=
  ⟨kept.machine, fun _ _ => kept.running.trans (h.running hbegun hat)⟩

theorem isOver_emulatorPart (r : Race α) (did : List Happening) {next : EmulatorStage}
    (hnext : next.isOver = false) (result : Emulator.Result α) :
    (r.emulatorPart did next result).emulatorAt.isOver = !goesOn result := by
  cases result with
  | goOn e => exact hnext
  | stop e => rfl
  | fail e cause => rfl

-- To have ended takes a move of its own.
theorem ne_ended_emulatorPart (r : Race α) (did : List Happening) {next : EmulatorStage}
    (hnext : next.isOver = false) (result : Emulator.Result α) :
    (r.emulatorPart did next result).emulatorAt ≠ .ended := by
  cases result with
  | goOn e =>
    rintro ⟨⟩
    cases hnext
  | stop e => exact nofun
  | fail e cause => exact nofun

theorem isOver_presenterPart (r : Race α) {next : PresenterStage} (hnext : next.isOver = false)
    (result : Presenter.Result α) :
    (r.presenterPart next result).presenterAt.isOver = !goesOn result := by
  cases result with
  | goOn p => exact hnext
  | stop p => rfl
  | fail p cause => rfl

end Addition

end SuperChip.Session
