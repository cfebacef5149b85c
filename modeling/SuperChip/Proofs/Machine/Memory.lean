import SuperChip.Machine.Basic

-- Bytes that are written one after another take the place of those that were there.
namespace SuperChip

theorem val_onRing_natCast {size : Nat} {hs : 0 < size} {i : Nat} (hi : i < size) :
    (onRing size hs i).val = i := by
  have hmod : (i : Int) % size = i := Int.emod_eq_of_lt (by omega) (by omega)
  simp [onRing, hmod]

namespace Memory

-- A list with a stretch of it replaced by as many new bytes. A stretch that reaches past the end
-- makes the list longer.
def overwrite (bytes : List UInt8) (start : Nat) (new : List UInt8) : List UInt8 :=
  bytes.take start ++ new ++ bytes.drop (start + new.length)

theorem length_overwrite (bytes : List UInt8) (start : Nat) (new : List UInt8)
    (hfit : start + new.length ≤ bytes.length) :
    (overwrite bytes start new).length = bytes.length := by
  simp only [overwrite, List.length_append, List.length_take, List.length_drop]
  omega

theorem toList_write (ram : Memory) {address : Nat} (ha : address < 4096) (byte : UInt8) :
    (ram.write address byte).toList = ram.toList.set address byte := by
  have hv : (onRing 4096 size_pos address).val = address := val_onRing_natCast ha
  simp only [write, Vector.toList_set, hv]

theorem overwrite_set (bytes : List UInt8) {start : Nat} (byte : UInt8) (rest : List UInt8)
    (hs : start < bytes.length) :
    overwrite (bytes.set start byte) (start + 1) rest = overwrite bytes start (byte :: rest) := by
  have htake : (bytes.set start byte).take (start + 1) = bytes.take start ++ [byte] := by
    rw [List.take_add_one, List.take_set_of_le (Nat.le_refl start),
      List.getElem?_set_self hs, Option.toList_some]
  have hdrop : (bytes.set start byte).drop (start + 1 + rest.length) =
      bytes.drop (start + (rest.length + 1)) := by
    rw [List.drop_set_of_lt (by omega), Nat.add_assoc, Nat.add_comm 1]
  simp only [overwrite, htake, hdrop, List.length_cons, List.append_assoc, List.cons_append,
    List.nil_append]

theorem toList_writeAll (ram : Memory) (start : Nat) (bytes : List UInt8)
    (hfit : start + bytes.length ≤ 4096) :
    (ram.writeAll start bytes).toList = overwrite ram.toList start bytes := by
  induction bytes generalizing ram start with
  | nil => simp [writeAll, overwrite]
  | cons byte rest ih =>
    simp only [List.length_cons] at hfit
    have hs : start < 4096 := by omega
    have hrest := ih (ram.write start byte) (start + 1) (by omega)
    change ((ram.write start byte).writeAll ((start + 1 : Nat) : Int) rest).toList = _
    rw [hrest, toList_write ram hs]
    exact overwrite_set ram.toList byte rest (by simpa using hs)

theorem read_writeAll_of_ne (ram : Memory) {start a : Int} {bytes : List UInt8}
    (hne : ∀ k < bytes.length, (start + k) % 4096 ≠ a % 4096) :
    (ram.writeAll start bytes).read a = ram.read a := by
  induction bytes generalizing ram start with
  | nil => rfl
  | cons byte rest ih =>
    have hfirst : start % 4096 ≠ a % 4096 := by
      simpa using hne 0 (Nat.zero_lt_succ _)
    rw [writeAll, ih, read_write, if_neg hfirst]
    intro k hk
    have hlater := hne (k + 1) (Nat.succ_lt_succ hk)
    have hsum : start + 1 + k = start + (k + 1 : Nat) := by omega
    rwa [hsum]

-- Bytes that do not go all the way round do not overwrite one another.
theorem read_writeAll (ram : Memory) (start : Int) {bytes : List UInt8} (hfit : bytes.length ≤ 4096)
    {k : Nat} (hk : k < bytes.length) : (ram.writeAll start bytes).read (start + k) = bytes[k] := by
  induction bytes generalizing ram start k with
  | nil => cases hk
  | cons byte rest ih =>
    rw [List.length_cons] at hfit hk
    cases k with
    | zero =>
      rw [writeAll, read_writeAll_of_ne, read_write, if_pos]
      · rfl
      · simp
      · intro j hj
        omega
    | succ k =>
      have hsum : start + (k + 1 : Nat) = start + 1 + k := by omega
      rw [writeAll, hsum, ih _ _ (by omega) (by omega)]
      rfl

end Memory

end SuperChip
