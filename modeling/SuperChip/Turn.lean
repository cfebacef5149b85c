-- One turn of a loop: it goes on, it is over, or something went wrong on the way. In each case there
-- is a state that the turn leaves behind.
namespace SuperChip

inductive Turn (σ ε : Type) where
  | goOn (s : σ)
  | stop (s : σ)
  | fail (s : σ) (cause : ε)

namespace Turn

variable {σ ε : Type}

def state : Turn σ ε → σ
  | goOn s => s
  | stop s => s
  | fail s _ => s

def isStop : Turn σ ε → Bool
  | stop _ => true
  | _ => false

-- The same turn of something that the state is a part of.
def map {τ : Type} (f : σ → τ) : Turn σ ε → Turn τ ε
  | goOn s => goOn (f s)
  | stop s => stop (f s)
  | fail s cause => fail (f s) cause

-- The next part of the turn, unless the turn has ended before.
def andThen (t : Turn σ ε) (f : σ → Turn σ ε) : Turn σ ε :=
  match t with
  | goOn s => f s
  | stop s => stop s
  | fail s cause => fail s cause

@[simp] theorem andThen_goOn (s : σ) (f : σ → Turn σ ε) : (goOn s).andThen f = f s := rfl

@[simp] theorem andThen_stop (s : σ) (f : σ → Turn σ ε) : (stop s).andThen f = stop s := rfl

@[simp] theorem andThen_fail (s : σ) (cause : ε) (f : σ → Turn σ ε) :
    (fail s cause).andThen f = fail s cause := rfl

-- What holds of the state a part starts from and is kept by each part holds at the end.
theorem state_andThen {p : σ → Prop} {t : Turn σ ε} {f : σ → Turn σ ε} (ht : p t.state)
    (hf : ∀ s, p s → p (f s).state) : p (t.andThen f).state := by
  cases t with
  | goOn s => exact hf s ht
  | stop s => exact ht
  | fail s cause => exact ht

end Turn

end SuperChip
