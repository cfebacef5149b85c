import SuperChip.Proofs.Channel

-- The two ends of a channel in use at once. Every operation is taken in its atomic parts: testing
-- whether the channel is closed, putting a message in, polling for one, and closing. One side sends
-- and then closes, and the other receives again and again.
namespace SuperChip.Channel

inductive Side where
  | sender
  | receiver
  deriving DecidableEq

-- Where the sending side stands, with the messages it has yet to send.
inductive SenderPoint (α : Type) where
  -- before the test for the next message, or before closing if there is none
  | between (unsent : List α)
  | putting (message : α) (unsent : List α)
  | closed
  | refused (cause : Closed)
  deriving DecidableEq

inductive ReceiverPoint where
  | between
  -- a first poll has found nothing
  | testing
  -- and then the channel was closed
  | retrying
  deriving DecidableEq

-- What a call of the receiving side comes to, and the calls that have come to an end.
abbrev Answer (α : Type) := Except Closed (Option α)

structure Handover (α : Type) where
  channel : Channel α
  sender : SenderPoint α
  receiver : ReceiverPoint
  answers : List (Answer α)

variable {α : Type}

def SenderPoint.unsent : SenderPoint α → List α
  | .between unsent => unsent
  | .putting message unsent => message :: unsent
  | .closed => []
  | .refused _ => []

def received (answers : List (Answer α)) : List α :=
  answers.filterMap fun
    | .ok message => message
    | .error _ => none

theorem received_append (first second : List (Answer α)) :
    received (first ++ second) = received first ++ received second := List.filterMap_append

namespace Handover

def started (name : String) (messages : List α) : Handover α :=
  ⟨.opened name, .between messages, .between, []⟩

def answer (h : Handover α) (a : Answer α) : Handover α :=
  { h with receiver := .between, answers := h.answers ++ [a] }

-- A poll answers the call if it finds a message.
def poll (h otherwise : Handover α) : Handover α :=
  match h.channel.pending with
  | message :: rest => { h with channel.pending := rest }.answer (.ok (some message))
  | [] => otherwise

def senderMove (h : Handover α) : Handover α :=
  match h.sender with
  | .between [] => { h with channel := h.channel.close, sender := .closed }
  | .between (message :: unsent) =>
    if h.channel.closed then { h with sender := .refused (.sending h.channel.name) }
    else { h with sender := .putting message unsent }
  | .putting message unsent =>
    { h with channel := h.channel.added [message], sender := .between unsent }
  | .closed => h
  | .refused _ => h

def receiverMove (h : Handover α) : Handover α :=
  match h.receiver with
  | .between => h.poll { h with receiver := .testing }
  | .testing => if h.channel.closed then { h with receiver := .retrying } else h.answer (.ok none)
  | .retrying => h.poll (h.answer (.error (.receiving h.channel.name)))

def move (h : Handover α) : Side → Handover α
  | .sender => h.senderMove
  | .receiver => h.receiverMove

def run (h : Handover α) (moves : List Side) : Handover α := moves.foldl move h

variable {h : Handover α} {messages : List α}

theorem poll_of_cons {message : α} {rest : List α} (hp : h.channel.pending = message :: rest)
    (otherwise : Handover α) :
    h.poll otherwise = { h with channel.pending := rest }.answer (.ok (some message)) := by
  simp only [poll, hp]

theorem poll_of_nil (hp : h.channel.pending = []) (otherwise : Handover α) :
    h.poll otherwise = otherwise := by
  simp only [poll, hp]

-- If only one side moves, its parts come to the operation as a whole.
theorem run_send {message : α} {unsent : List α} (hat : h.sender = .between (message :: unsent)) :
    h.run [.sender, .sender] =
      match h.channel.send message with
      | .ok channel => { h with channel, sender := .between unsent }
      | .error closed => { h with sender := .refused closed } := by
  cases hclosed : h.channel.closed with
  | true =>
    simp only [run, List.foldl_cons, List.foldl_nil, move, senderMove, hat, hclosed, if_true, send]
  | false =>
    simp only [run, List.foldl_cons, List.foldl_nil, move, senderMove, hat, hclosed,
      Bool.false_eq_true, if_false, send_of_open hclosed]

theorem exists_run_receive (hat : h.receiver = .between) :
    ∃ count, h.run (.replicate count .receiver) =
      match h.channel.receive with
      | .ok (message, channel) => { h with channel }.answer (.ok message)
      | .error closed => h.answer (.error closed) := by
  rcases hp : h.channel.pending with _ | ⟨message, rest⟩
  · cases hclosed : h.channel.closed with
    | true =>
      refine ⟨3, ?_⟩
      simp only [List.replicate, run, List.foldl_cons, List.foldl_nil, move, receiverMove, hat,
        poll, hp, hclosed, if_true, receive, answer]
    | false =>
      refine ⟨2, ?_⟩
      simp only [List.replicate, run, List.foldl_cons, List.foldl_nil, move, receiverMove, hat,
        poll, hp, hclosed, Bool.false_eq_true, if_false, receive_of_nil hp hclosed, answer]
  · refine ⟨1, ?_⟩
    simp only [List.replicate, run, List.foldl_cons, List.foldl_nil, move, receiverMove, hat,
      poll_of_cons hp, receive_of_cons hp]

-- Nothing is lost between the two sides, and a receiver that has seen the channel closed, or was
-- told so, came after everything that was sent.
structure Sound (messages : List α) (h : Handover α) : Prop where
  accounted : received h.answers ++ h.channel.pending ++ h.sender.unsent = messages
  closed_iff : h.channel.closed = true ↔ h.sender = .closed
  accepted : ∀ cause, h.sender ≠ .refused cause
  retrying : h.receiver = .retrying → h.channel.closed = true
  told : ∀ count closed, h.answers[count]? = some (.error closed) →
    received (h.answers.take count) = messages

theorem started_sound (name : String) (messages : List α) :
    Sound messages (started name messages) := by
  refine ⟨rfl, ?_, nofun, nofun, nofun⟩
  simp [started, opened]

theorem Sound.isOpen (hs : Sound messages h) (hat : h.sender ≠ .closed) :
    h.channel.closed = false := by
  rw [Bool.eq_false_iff, ne_eq, hs.closed_iff]
  exact hat

theorem Sound.senderMove (hs : Sound messages h) : Sound messages h.senderMove := by
  unfold Handover.senderMove
  rcases hat : h.sender with ⟨_ | ⟨message, unsent⟩⟩ | ⟨message, unsent⟩ | _ | cause
  · refine ⟨?_, ?_, nofun, fun _ => rfl, hs.told⟩
    · have haccounted := hs.accounted
      rw [hat] at haccounted
      exact haccounted
    · exact ⟨fun _ => rfl, fun _ => rfl⟩
  · have hopen := hs.isOpen (by simp [hat])
    simp only [hopen, Bool.false_eq_true, if_false]
    have haccounted := hs.accounted
    rw [hat] at haccounted
    refine ⟨haccounted, ?_, nofun, hs.retrying, hs.told⟩
    simp [hopen]
  · have hopen := hs.isOpen (by simp [hat])
    refine ⟨?_, ?_, nofun, hs.retrying, hs.told⟩
    · have haccounted := hs.accounted
      rw [hat] at haccounted
      simpa [SenderPoint.unsent] using haccounted
    · simp [hopen]
  · simpa only [hat] using hs
  · exact absurd hat (hs.accepted cause)

-- An answer that is taken from the channel, or that takes nothing from it.
theorem Sound.answer (hs : Sound messages h) {a : Answer α} (pending : List α)
    (hpending : received [a] ++ pending = h.channel.pending)
    (htold : ∀ closed, a = .error closed → received h.answers = messages) :
    Sound messages ({ h with channel.pending := pending }.answer a) := by
  refine ⟨?_, hs.closed_iff, hs.accepted, nofun, ?_⟩
  · have haccounted := hs.accounted
    rw [← hpending] at haccounted
    simpa only [Handover.answer, received_append, List.append_assoc] using haccounted
  · intro count closed hcount
    simp only [Handover.answer] at hcount ⊢
    by_cases hearlier : count < h.answers.length
    · rw [List.getElem?_append_left hearlier] at hcount
      rw [List.take_append_of_le_length (Nat.le_of_lt hearlier)]
      exact hs.told count closed hcount
    · rw [List.getElem?_append_right (by omega)] at hcount
      obtain ⟨hlast, ha⟩ : count = h.answers.length ∧ a = .error closed := by
        cases hdiff : count - h.answers.length with
        | zero =>
          rw [hdiff] at hcount
          exact ⟨by omega, Option.some.inj hcount⟩
        | succ beyond =>
          rw [hdiff] at hcount
          cases hcount
      rw [hlast, List.take_left]
      exact htold closed ha

theorem Sound.poll {otherwise : Handover α} (hs : Sound messages h)
    (hnone : h.channel.pending = [] → Sound messages otherwise) :
    Sound messages (h.poll otherwise) := by
  rcases hp : h.channel.pending with _ | ⟨message, rest⟩
  · rw [poll_of_nil hp]
    exact hnone hp
  · rw [poll_of_cons hp]
    exact hs.answer rest hp.symm nofun

theorem Sound.receiverMove (hs : Sound messages h) : Sound messages h.receiverMove := by
  unfold Handover.receiverMove
  cases hat : h.receiver with
  | between =>
    exact hs.poll fun _ => ⟨hs.accounted, hs.closed_iff, hs.accepted, nofun, hs.told⟩
  | testing =>
    cases hclosed : h.channel.closed with
    | true => exact ⟨hs.accounted, hs.closed_iff, hs.accepted, fun _ => hclosed, hs.told⟩
    | false => exact hs.answer (a := .ok none) h.channel.pending rfl nofun
  | retrying =>
    -- the channel was found closed before this poll, so nothing can be put in after it
    refine hs.poll fun hp => ?_
    have hsender := hs.closed_iff.mp (hs.retrying hat)
    have hall := hs.accounted
    rw [hsender, hp, SenderPoint.unsent, List.append_nil, List.append_nil] at hall
    exact hs.answer (a := .error _) h.channel.pending rfl fun _ _ => hall

theorem Sound.run (hs : Sound messages h) (moves : List Side) : Sound messages (h.run moves) := by
  induction moves generalizing h with
  | nil => exact hs
  | cons side rest ih =>
    cases side with
    | sender => exact ih hs.senderMove
    | receiver => exact ih hs.receiverMove

-- Calls may have come to an end, but none of them with nothing.
def Answered (h h' : Handover α) : Prop :=
  ∃ news, h'.answers = h.answers ++ news ∧ .ok none ∉ news

theorem Answered.of_eq {h' : Handover α} (hanswers : h'.answers = h.answers) : Answered h h' :=
  ⟨[], hanswers.trans (List.append_nil _).symm, List.not_mem_nil⟩

theorem Answered.trans {h' h'' : Handover α} (hfirst : Answered h h') (hsecond : Answered h' h'') :
    Answered h h'' := by
  obtain ⟨first, hfirst, hfirstSome⟩ := hfirst
  obtain ⟨second, hsecond, hsecondSome⟩ := hsecond
  refine ⟨first ++ second, ?_, ?_⟩
  · rw [hsecond, hfirst, List.append_assoc]
  · rw [List.mem_append]
    exact fun hmem => hmem.elim hfirstSome hsecondSome

theorem answered_poll {otherwise : Handover α} (hnone : Answered h otherwise) :
    Answered h (h.poll otherwise) := by
  rcases hp : h.channel.pending with _ | ⟨message, rest⟩
  · rw [poll_of_nil hp]
    exact hnone
  · rw [poll_of_cons hp]
    exact ⟨[.ok (some message)], rfl, by simp⟩

theorem closed_poll {otherwise : Handover α} (hclosed : h.channel.closed = true)
    (hstays : otherwise.channel.closed = true) : (h.poll otherwise).channel.closed = true := by
  unfold poll
  split
  · exact hclosed
  · exact hstays

theorem closed_move (hclosed : h.channel.closed = true) (side : Side) :
    (h.move side).channel.closed = true := by
  cases side with
  | sender =>
    simp only [move, senderMove]
    split
    · rfl
    · rw [if_pos hclosed]
      exact hclosed
    · exact hclosed
    · exact hclosed
    · exact hclosed
  | receiver =>
    simp only [move, receiverMove]
    cases h.receiver with
    | between => exact closed_poll hclosed hclosed
    | testing =>
      rw [if_pos hclosed]
      exact hclosed
    | retrying => exact closed_poll hclosed hclosed

theorem answers_senderMove (h : Handover α) : h.senderMove.answers = h.answers := by
  unfold senderMove
  split
  · rfl
  · split <;> rfl
  · rfl
  · rfl
  · rfl

theorem answered_move (hclosed : h.channel.closed = true) (side : Side) :
    Answered h (h.move side) := by
  cases side with
  | sender => exact .of_eq (answers_senderMove h)
  | receiver =>
    simp only [move, receiverMove]
    cases h.receiver with
    | between => exact answered_poll (.of_eq rfl)
    | testing =>
      rw [if_pos hclosed]
      exact .of_eq rfl
    | retrying => exact answered_poll ⟨[.error _], rfl, by simp⟩

-- Once the channel is closed no call comes back with nothing.
theorem run_of_closed (hclosed : h.channel.closed = true) (moves : List Side) :
    Answered h (h.run moves) := by
  induction moves generalizing h with
  | nil => exact .of_eq rfl
  | cons side rest ih => exact (answered_move hclosed side).trans (ih (closed_move hclosed side))

-- How many moves it takes a receiver until it is told that the channel is closed, if it is.
def movesLeft (h : Handover α) : Nat :=
  match h.receiver, h.channel.pending with
  | .between, pending => pending.length + 3
  | .testing, [] => 2
  | .testing, pending => pending.length + 4
  | .retrying, [] => 1
  | .retrying, pending => pending.length + 3

theorem movesLeft_pos (h : Handover α) : 0 < h.movesLeft := by
  unfold movesLeft
  split <;> omega

theorem movesLeft_le (h : Handover α) : h.movesLeft ≤ h.channel.pending.length + 4 := by
  unfold movesLeft
  split <;> simp_all

def Told (h : Handover α) : Prop := ∃ closed, .error closed ∈ h.answers

theorem receiverMove_nearer (hclosed : h.channel.closed = true) :
    h.receiverMove.Told ∨ h.receiverMove.movesLeft < h.movesLeft := by
  unfold receiverMove
  cases hat : h.receiver with
  | between =>
    right
    rcases hp : h.channel.pending with _ | ⟨message, rest⟩
    · simp [poll_of_nil hp, movesLeft, hat, hp]
    · simp [poll_of_cons hp, answer, movesLeft, hat, hp]
  | testing =>
    right
    rcases hp : h.channel.pending with _ | ⟨message, rest⟩
    · simp [hclosed, movesLeft, hat, hp]
    · simp [hclosed, movesLeft, hat, hp]
  | retrying =>
    rcases hp : h.channel.pending with _ | ⟨message, rest⟩
    · left
      refine ⟨.receiving h.channel.name, ?_⟩
      simp [poll_of_nil hp, answer]
    · right
      simp [poll_of_cons hp, answer, movesLeft, hat, hp]

theorem senderMove_of_closed (hat : h.sender = .closed) : h.senderMove = h := by
  simp only [senderMove, hat]

theorem sender_receiverMove (h : Handover α) : h.receiverMove.sender = h.sender := by
  unfold receiverMove
  split
  · unfold poll
    split <;> rfl
  · split <;> rfl
  · unfold poll
    split <;> rfl

theorem Told.run (htold : h.Told) (hclosed : h.channel.closed = true) (moves : List Side) :
    (h.run moves).Told := by
  obtain ⟨closed, hmem⟩ := htold
  obtain ⟨news, hnews, -⟩ := run_of_closed hclosed moves
  exact ⟨closed, hnews ▸ List.mem_append_left _ hmem⟩

theorem told_of_count (hclosed : h.channel.closed = true) (hat : h.sender = .closed)
    (moves : List Side) (hcount : h.movesLeft ≤ moves.count .receiver) : (h.run moves).Told := by
  induction moves generalizing h with
  | nil =>
    have hpos := h.movesLeft_pos
    rw [List.count_nil] at hcount
    omega
  | cons side rest ih =>
    cases side with
    | sender =>
      have hrest : (h.run (.sender :: rest)) = h.run rest :=
        congrArg (fun h' : Handover α => h'.run rest) (senderMove_of_closed hat)
      rw [hrest]
      exact ih hclosed hat (by simpa using hcount)
    | receiver =>
      have hstays := closed_move hclosed .receiver
      rcases receiverMove_nearer hclosed with htold | hless
      · exact htold.run hstays rest
      · refine ih hstays ((sender_receiverMove h).trans hat) ?_
        rw [List.count_cons_self] at hcount
        have hnearer : (h.move .receiver).movesLeft < h.movesLeft := hless
        omega

-- However the two sides meet: what is received is the beginning of what is sent. Whoever is told
-- that the channel is closed has received everything by then, and once it is closed no call comes
-- back with nothing. A receiver that goes on is told in the end.
theorem close_follows_messages (name : String) (messages : List α) (moves : List Side) :
    let h := (started name messages).run moves
    received h.answers <+: messages ∧
      (∀ cause, h.sender ≠ .refused cause) ∧
      (∀ count cause, h.answers[count]? = some (.error cause) →
        received (h.answers.take count) = messages) ∧
      (h.channel.closed = true → ∀ later : List Side,
        ∃ news, (h.run later).answers = h.answers ++ news ∧ .ok none ∉ news) ∧
      (h.sender = .closed → ∀ later : List Side,
        h.channel.pending.length + 4 ≤ later.count .receiver → (h.run later).Told) := by
  intro h
  have hsound : Sound messages h := (started_sound name messages).run moves
  refine ⟨?_, hsound.accepted, hsound.told, fun hclosed later => run_of_closed hclosed later, ?_⟩
  · refine ⟨h.channel.pending ++ h.sender.unsent, ?_⟩
    rw [← List.append_assoc]
    exact hsound.accounted
  · intro hat later hcount
    exact told_of_count (hsound.closed_iff.mpr hat) hat later (Nat.le_trans h.movesLeft_le hcount)

-- The only message is put in, and the channel closed, between the first poll and the test of a
-- call. The call still gets the message, and the next one is told that there are no more.
theorem close_follows_messages_between :
    let early : List Side := [.receiver, .sender, .sender, .sender]
    let late : List Side := .replicate 5 .receiver
    let h := (started defaultName [7]).run early
    let answers := (h.run late).answers
    h.receiver = .testing ∧ h.channel.closed = true ∧
      answers = [.ok (some 7), .error (.receiving defaultName)] ∧
      received (answers.take 1) = [7] ∧ (h.run late).Told ∧
      ∃ news, answers = h.answers ++ news ∧ .ok none ∉ news := by
  intro early late h answers
  obtain ⟨-, -, -, hnews, htold⟩ := close_follows_messages defaultName [7] early
  have hlate : h.run late = (started defaultName [7]).run (early ++ late) := rfl
  obtain ⟨-, -, hall, -⟩ := close_follows_messages defaultName [7] (early ++ late)
  rw [← hlate] at hall
  exact ⟨rfl, rfl, rfl, hall 1 (.receiving defaultName) rfl, htold rfl late (by decide),
    hnews rfl late⟩

end Handover

end SuperChip.Channel
