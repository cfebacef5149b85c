import SuperChip.Proofs.Channel.Handover

-- A channel that is used by whoever likes, one operation at a time. It is a queue that can be closed:
-- what it was given and has not handed back is waiting in it, in order, and after it is closed it is
-- given nothing more.
namespace SuperChip.Channel

inductive Request (α : Type) where
  | send (message : α)
  | receive
  | close
  deriving DecidableEq

-- What was asked of a channel, and its answer. Sending and closing hand nothing back.
structure Exchange (α : Type) where
  request : Request α
  answer : Answer α

variable {α : Type} {c : Channel α}

def serve (c : Channel α) : Request α → Answer α × Channel α
  | .send message =>
    match c.send message with
    | .ok c' => (.ok none, c')
    | .error cause => (.error cause, c)
  | .receive =>
    match c.receive with
    | .ok (message, c') => (.ok message, c')
    | .error cause => (.error cause, c)
  | .close => (.ok none, c.close)

theorem serve_send_of_open (hopen : c.closed = false) (message : α) :
    c.serve (.send message) = (.ok none, c.added [message]) := by
  simp only [serve, send_of_open hopen]

theorem serve_send_of_closed (hclosed : c.closed = true) (message : α) :
    c.serve (.send message) = (.error (.sending c.name), c) := by
  simp only [serve, send, hclosed, if_true]

theorem serve_receive_of_cons {message : α} {rest : List α}
    (hp : c.pending = message :: rest) :
    c.serve .receive = (.ok (some message), { c with pending := rest }) := by
  simp only [serve, receive_of_cons hp]

theorem serve_receive_of_nil (hp : c.pending = []) :
    c.serve .receive = (if c.closed then .error (.receiving c.name) else .ok none, c) := by
  cases hclosed : c.closed with
  | true => simp only [serve, receive, hp, hclosed, if_true]
  | false => simp only [serve, receive_of_nil hp hclosed, Bool.false_eq_true, if_false]

-- A close is never undone.
theorem closed_serve (hclosed : c.closed = true) (request : Request α) :
    (c.serve request).2.closed = true := by
  cases request with
  | send message =>
    rw [serve_send_of_closed hclosed]
    exact hclosed
  | receive =>
    rcases hp : c.pending with _ | ⟨message, rest⟩
    · rw [serve_receive_of_nil hp]
      exact hclosed
    · rw [serve_receive_of_cons hp]
      exact hclosed
  | close => rfl

-- The messages that were sent and not refused.
def accepted (history : List (Exchange α)) : List α :=
  history.filterMap fun
    | ⟨.send message, .ok _⟩ => some message
    | _ => none

theorem accepted_append (first second : List (Exchange α)) :
    accepted (first ++ second) = accepted first ++ accepted second := List.filterMap_append

-- A channel with all that it has been asked.
structure Usage (α : Type) where
  channel : Channel α
  history : List (Exchange α)

namespace Usage

def started (name : String) : Usage α := ⟨.opened name, []⟩

def ask (u : Usage α) (request : Request α) : Usage α :=
  let (answer, channel) := u.channel.serve request
  ⟨channel, u.history ++ [⟨request, answer⟩]⟩

def run (u : Usage α) (requests : List (Request α)) : Usage α := requests.foldl ask u

def answers (u : Usage α) : List (Answer α) := u.history.map Exchange.answer

variable {u : Usage α} {name : String} {requests : List (Request α)}

-- Nothing is lost, doubled or put before what was sent earlier.
structure Ordered (name : String) (requests : List (Request α)) (u : Usage α) : Prop where
  name_eq : u.channel.name = name
  asked : u.history.map Exchange.request = requests
  accounted : received u.answers ++ u.channel.pending = accepted u.history
  closed_iff : u.channel.closed = true ↔ .close ∈ requests

theorem started_ordered (name : String) : Ordered (α := α) name [] (started name) := by
  refine ⟨rfl, rfl, rfl, ?_⟩
  simp [started, opened]

-- An exchange that takes what it hands back from the front and adds what it accepts at the end.
theorem Ordered.exchange (h : Ordered name requests u) {request : Request α} {answer : Answer α}
    {c : Channel α} (hserve : u.channel.serve request = (answer, c))
    (hname : c.name = u.channel.name)
    (hpending : u.channel.pending ++ accepted [⟨request, answer⟩] =
      received [answer] ++ c.pending)
    (hclosed : c.closed = true ↔ u.channel.closed = true ∨ request = .close) :
    Ordered name (requests ++ [request]) (u.ask request) := by
  have hask : u.ask request = ⟨c, u.history ++ [⟨request, answer⟩]⟩ := by
    simp only [ask, hserve]
  rw [hask]
  refine ⟨hname.trans h.name_eq, ?_, ?_, ?_⟩
  · rw [List.map_append, h.asked, List.map_singleton]
  · have hanswers : (⟨c, u.history ++ [⟨request, answer⟩]⟩ : Usage α).answers =
        u.answers ++ [answer] := List.map_append
    rw [hanswers, received_append, accepted_append, ← h.accounted, List.append_assoc,
      List.append_assoc, hpending]
  · rw [hclosed, h.closed_iff, List.mem_append, List.mem_singleton, eq_comm (b := request)]

theorem Ordered.ask (h : Ordered name requests u) (request : Request α) :
    Ordered name (requests ++ [request]) (u.ask request) := by
  cases request with
  | send message =>
    cases hclosed : u.channel.closed with
    | true =>
      refine h.exchange (serve_send_of_closed hclosed message) rfl ?_ ?_
      · simp [accepted, received]
      · simp
    | false =>
      refine h.exchange (serve_send_of_open hclosed message) rfl ?_ ?_
      · simp [accepted, received]
      · simp
  | receive =>
    rcases hp : u.channel.pending with _ | ⟨message, rest⟩
    · refine h.exchange (serve_receive_of_nil hp) rfl ?_ ?_
      · cases u.channel.closed <;> simp [accepted, received]
      · simp
    · refine h.exchange (serve_receive_of_cons hp) rfl ?_ ?_
      · simp [accepted, received, hp]
      · simp
  | close =>
    refine h.exchange rfl rfl ?_ ?_
    · simp [accepted, received, close]
    · simp [close]

theorem Ordered.run (h : Ordered name requests u) (later : List (Request α)) :
    Ordered name (requests ++ later) (u.run later) := by
  induction later generalizing requests u with
  | nil => rwa [List.append_nil]
  | cons request rest ih =>
    rw [List.append_cons]
    exact ih (h.ask request)

theorem Ordered.pending_length (h : Ordered name requests u) :
    (u.channel.pending.length : Int) =
      (accepted u.history).length - (received u.answers).length := by
  have hlength := congrArg List.length h.accounted
  rw [List.length_append] at hlength
  omega

theorem Ordered.closed_eq_false (h : Ordered name requests u) (hnot : .close ∉ requests) :
    u.channel.closed = false := by
  rw [Bool.eq_false_iff, ne_eq, h.closed_iff]
  exact hnot

theorem Ordered.send_refused (h : Ordered name requests u) (hmem : .close ∈ requests)
    (message : α) :
    u.channel.serve (.send message) = (.error (.sending name), u.channel) := by
  rw [serve_send_of_closed (h.closed_iff.mpr hmem), h.name_eq]

theorem Ordered.send_error_iff (h : Ordered name requests u) (message : α) (cause : Closed) :
    (u.channel.serve (.send message)).1 = .error cause ↔
      cause = .sending name ∧ .close ∈ requests := by
  by_cases hmem : .close ∈ requests
  · simp [h.send_refused hmem, hmem, eq_comm]
  · simp [serve_send_of_open (h.closed_eq_false hmem), hmem]

theorem Ordered.receive_error_iff (h : Ordered name requests u) (cause : Closed) :
    (u.channel.serve .receive).1 = .error cause ↔
      cause = .receiving name ∧ u.channel.pending = [] ∧ .close ∈ requests := by
  rcases hp : u.channel.pending with _ | ⟨message, rest⟩
  · rw [serve_receive_of_nil hp, ← h.closed_iff, h.name_eq]
    cases u.channel.closed <;> simp [eq_comm]
  · simp [serve_receive_of_cons hp]

theorem Ordered.receive_none_iff (h : Ordered name requests u) :
    (u.channel.serve .receive).1 = .ok none ↔ u.channel.pending = [] ∧ .close ∉ requests := by
  rcases hp : u.channel.pending with _ | ⟨message, rest⟩
  · rw [serve_receive_of_nil hp, ← h.closed_iff]
    cases u.channel.closed <;> simp
  · simp [serve_receive_of_cons hp]

theorem receive_some_iff (c : Channel α) (message : α) :
    (c.serve .receive).1 = .ok (some message) ↔ c.pending.head? = some message := by
  rcases hp : c.pending with _ | ⟨first, rest⟩
  · rw [serve_receive_of_nil hp]
    cases c.closed <;> simp
  · simp [serve_receive_of_cons hp]

-- However a channel has been used, it is the queue of what it accepted and has not handed back, and
-- it refuses exactly as one that may have been closed does.
theorem queue_until_closed (name : String) (requests : List (Request α)) :
    let u := (started name).run requests
    let c := u.channel
    u.history.map Exchange.request = requests ∧
      received u.answers ++ c.pending = accepted u.history ∧
      (c.pending.length : Int) = (accepted u.history).length - (received u.answers).length ∧
      (c.closed = true ↔ .close ∈ requests) ∧
      (∀ message,
        (∀ cause, (c.serve (.send message)).1 = .error cause ↔
          cause = .sending name ∧ .close ∈ requests) ∧
        (.close ∈ requests → (c.serve (.send message)).2 = c)) ∧
      ((c.serve .receive).1 = .ok none ↔ c.pending = [] ∧ .close ∉ requests) ∧
      (∀ cause, (c.serve .receive).1 = .error cause ↔
        cause = .receiving name ∧ c.pending = [] ∧ .close ∈ requests) ∧
      (∀ message, (c.serve .receive).1 = .ok (some message) ↔ c.pending.head? = some message) ∧
      ((c.serve .close).2.serve .close).2 = (c.serve .close).2 ∧
      (c.serve .close).2.pending = c.pending ∧
      (∀ later, .close ∈ requests → (u.run later).channel.closed = true) := by
  intro u c
  have h : Ordered name requests u := (started_ordered name).run requests
  refine ⟨h.asked, h.accounted, h.pending_length, h.closed_iff, ?_, h.receive_none_iff,
    h.receive_error_iff, receive_some_iff c, rfl, rfl, ?_⟩
  · intro message
    refine ⟨h.send_error_iff message, ?_⟩
    intro hmem
    rw [h.send_refused hmem message]
  · intro later hmem
    exact (h.run later).closed_iff.mpr (List.mem_append_left later hmem)

-- What is sent before a close comes out after it, in order.
example :
    ((started "mailbox").run [.send 1, .send 2, .receive, .close, .close, .send 3, .receive,
      .receive]).answers =
    [.ok none, .ok none, .ok (some 1), .ok none, .ok none, .error (.sending "mailbox"),
      .ok (some 2), .error (.receiving "mailbox")] := rfl

end Usage

end SuperChip.Channel
