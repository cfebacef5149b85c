import SuperChip.Channel

-- What an open channel does with what is sent, and any channel with what is waiting in it.
namespace SuperChip.Channel

variable {α : Type} {c : Channel α}

def added (c : Channel α) (messages : List α) : Channel α :=
  { c with pending := c.pending ++ messages }

@[simp] theorem pending_added (c : Channel α) (messages : List α) :
    (c.added messages).pending = c.pending ++ messages := rfl

@[simp] theorem closed_added (c : Channel α) (messages : List α) :
    (c.added messages).closed = c.closed := rfl

@[simp] theorem added_nil (c : Channel α) : c.added [] = c := by
  simp only [added, List.append_nil]

@[simp] theorem added_added (c : Channel α) (first second : List α) :
    (c.added first).added second = c.added (first ++ second) := by
  simp only [added, List.append_assoc]

theorem send_of_open (h : c.closed = false) (message : α) :
    c.send message = .ok (c.added [message]) := by
  simp only [send, h, Bool.false_eq_true, if_false, added]

theorem receive_of_cons {message : α} {rest : List α} (h : c.pending = message :: rest) :
    c.receive = .ok (some message, { c with pending := rest }) := by
  simp only [receive, h]

theorem receive_of_nil (hp : c.pending = []) (hc : c.closed = false) :
    c.receive = .ok (none, c) := by
  simp only [receive, hp, hc, Bool.false_eq_true, if_false]

-- What receiving can come to.
theorem receive_cases {c' : Channel α} {message : Option α} (h : c.receive = .ok (message, c')) :
    (∃ oldest rest, c.pending = oldest :: rest ∧ message = some oldest ∧
        c' = { c with pending := rest }) ∨
      c.pending = [] ∧ message = none ∧ c' = c := by
  rcases hp : c.pending with _ | ⟨oldest, rest⟩
  · cases hc : c.closed with
    | true => simp [receive, hp, hc] at h
    | false =>
      rw [receive_of_nil hp hc] at h
      obtain ⟨rfl, rfl⟩ := Prod.mk.inj (Except.ok.inj h)
      exact .inr ⟨rfl, rfl, rfl⟩
  · rw [receive_of_cons hp] at h
    obtain ⟨rfl, rfl⟩ := Prod.mk.inj (Except.ok.inj h)
    exact .inl ⟨oldest, rest, rfl, rfl, rfl⟩

-- Receiving takes nothing but what is waiting, and closes nothing.
theorem receive_ok {c' : Channel α} {message : Option α} (h : c.receive = .ok (message, c')) :
    c'.closed = c.closed ∧ c'.pending ⊆ c.pending ∧ ∀ m ∈ message, m ∈ c.pending := by
  obtain ⟨oldest, rest, hp, rfl, rfl⟩ | ⟨hp, rfl, rfl⟩ := receive_cases h
  · simp [hp]
  · simp [hp]

theorem pending_of_receive {c' : Channel α} {message : Option α}
    (h : c.receive = .ok (message, c')) : c.pending = message.toList ++ c'.pending := by
  obtain ⟨oldest, rest, hp, rfl, rfl⟩ | ⟨hp, rfl, rfl⟩ := receive_cases h
  · exact hp
  · rfl

theorem head?_of_receive {c' : Channel α} {message : Option α}
    (h : c.receive = .ok (message, c')) : c.pending.head? = message := by
  obtain ⟨oldest, rest, hp, rfl, rfl⟩ | ⟨hp, rfl, rfl⟩ := receive_cases h
  · rw [hp, List.head?_cons]
  · rw [hp, List.head?_nil]

theorem receive_error_cases {closed : Closed} (h : c.receive = .error closed) :
    c.pending = [] ∧ c.closed = true ∧ closed = .receiving c.name := by
  rcases hp : c.pending with _ | ⟨oldest, rest⟩
  · cases hc : c.closed with
    | true =>
      simp only [receive, hp, hc, if_true] at h
      exact ⟨rfl, rfl, (Except.error.inj h).symm⟩
    | false => simp [receive, hp, hc] at h
  · simp [receive, hp] at h

theorem closed_of_receive_error {closed : Closed} (h : c.receive = .error closed) :
    c.closed = true := (receive_error_cases h).2.1

theorem eq_of_receive_error {closed : Closed} (h : c.receive = .error closed) :
    closed = .receiving c.name ∧ c.pending = [] :=
  ⟨(receive_error_cases h).2.2, (receive_error_cases h).1⟩

end SuperChip.Channel
