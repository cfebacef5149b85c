-- Places in a row of things. Counting starts at zero from the near end, or at minus one from the far
-- end.
namespace SuperChip

-- Whether a number fits a machine word with a sign.
def fitsWord (i : Int) : Bool := -0x8000000000000000 ≤ i && i < 0x8000000000000000

-- The place that a number names, if there is one.
def place? (size : Nat) (i : Int) : Option (Fin size) :=
  let j := if i < 0 then i + size else i
  if h : 0 ≤ j ∧ j < size then some ⟨j.toNat, by omega⟩ else none

theorem place?_natCast {size : Nat} (i : Fin size) : place? size (i.val : Int) = some i := by
  have hi := i.isLt
  simp [place?, show ¬ (i.val : Int) < 0 by omega]

-- The place that a number names on a ring, where the first place follows the last.
def onRing (size : Nat) (hs : 0 < size) (i : Int) : Fin size :=
  ⟨(i % size).toNat, by
    have h := Int.emod_lt_of_pos i (b := size) (by omega)
    omega⟩

-- Numbers name the same place if they differ by whole rounds.
theorem val_onRing_eq_iff {size : Nat} {hs : 0 < size} {i j : Int} :
    (onRing size hs i).val = (onRing size hs j).val ↔ i % size = j % size := by
  have hne : (size : Int) ≠ 0 := by omega
  have hi := Int.emod_nonneg i hne
  have hj := Int.emod_nonneg j hne
  simp only [onRing]
  omega

end SuperChip
