import SuperChip.Text.Quoted

-- One-way message channels between the two loops. Sending never waits and neither does receiving.
-- Either end may close a channel; what was sent before can still be received.
namespace SuperChip

structure Channel (α : Type) where
  name : String
  -- oldest message first
  pending : List α
  closed : Bool
  deriving DecidableEq

namespace Channel

variable {α : Type}

-- Using a channel that the other end has closed.
inductive Closed where
  | sending (name : String)
  | receiving (name : String)
  deriving DecidableEq, Repr

def Closed.message : Closed → String
  | .sending name => s!"{name}: send on closed channel"
  | .receiving name => s!"{name}: channel closed by the other end"

def defaultName : String := "channel"

def opened (name : String) : Channel α := ⟨name, [], false⟩

def send (c : Channel α) (message : α) : Except Closed (Channel α) :=
  if c.closed then .error (.sending c.name) else .ok { c with pending := c.pending ++ [message] }

-- The oldest message, or none if there is none yet. Only a channel that is both closed and empty
-- refuses.
def receive (c : Channel α) : Except Closed (Option α × Channel α) :=
  match c.pending with
  | message :: rest => .ok (some message, { c with pending := rest })
  | [] => if c.closed then .error (.receiving c.name) else .ok (none, c)

-- All that is pending, and how the channel stands once it is empty.
def drain (c : Channel α) : List α × Channel α × Option Closed :=
  let rest := { c with pending := [] }
  (c.pending, rest, if c.closed then some (.receiving c.name) else none)

def close (c : Channel α) : Channel α := { c with closed := true }

def describe (c : Channel α) : String :=
  let state := if c.closed then "closed" else "open"
  s!"Channel({Text.quoted c.name}, {state}, pending={c.pending.length})"

end Channel

end SuperChip
