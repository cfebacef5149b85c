import SuperChip.Proofs.Machine.Decode

-- What a word stands for has that word, and the word of an instruction stands for it: nothing is
-- lost when a word that can be executed is read as an instruction, or an instruction is written.
namespace SuperChip.Word

theorem toNat_ofDigits {a b c d : Nat} (ha : a < 16) (hb : b < 16) (hc : c < 16) (hd : d < 16) :
    (ofDigits a b c d).toNat = ((a * 16 + b) * 16 + c) * 16 + d := by
  rw [ofDigits, UInt16.toNat_ofNat_of_lt']
  simp only [UInt16.size]
  omega

theorem val_x (w : UInt16) : (x w).val = w.toNat / 256 % 16 := by
  simp [x, Fin.ofNat]

theorem val_y (w : UInt16) : (y w).val = w.toNat / 16 % 16 := by
  simp [y, Fin.ofNat]

theorem val_address (w : UInt16) : (address w).val = w.toNat % 4096 := by
  simp [address, Fin.ofNat]

-- The fields of words that are put together of four digits, or of a family and the rest.
section Digits

variable {a c d : Nat} (ha : a < 16) (b : Register) (hc : c < 16) (hd : d < 16)

include ha hc hd

theorem family_ofDigits : family (ofDigits a b c d) = a := by
  have hb := b.isLt
  rw [family, toNat_ofDigits ha hb hc hd]
  omega

theorem x_ofDigits : x (ofDigits a b c d) = b := by
  have hb := b.isLt
  apply Fin.ext
  rw [val_x, toNat_ofDigits ha hb hc hd]
  omega

theorem val_y_ofDigits : (y (ofDigits a b c d)).val = c := by
  have hb := b.isLt
  rw [val_y, toNat_ofDigits ha hb hc hd]
  omega

theorem val_n_ofDigits : (n (ofDigits a b c d)).val = d := by
  have hb := b.isLt
  rw [Instruction.val_n, toNat_ofDigits ha hb hc hd]
  omega

theorem toNat_byte_ofDigits : (byte (ofDigits a b c d)).toNat = c * 16 + d := by
  have hb := b.isLt
  rw [Instruction.toNat_byte, toNat_ofDigits ha hb hc hd]
  omega

end Digits

section Base

variable {base : Nat} (hbase : base % 4096 = 0) (hlt : base < 65536) (r : Register) (k : UInt8)
  (target : Address)

include hbase hlt

theorem toNat_ofNat_add {rest : Nat} (hrest : rest < 4096) :
    (UInt16.ofNat (base + rest)).toNat = base + rest := by
  rw [UInt16.toNat_ofNat_of_lt']
  simp only [UInt16.size]
  omega

theorem family_ofNat_add {rest : Nat} (hrest : rest < 4096) :
    family (UInt16.ofNat (base + rest)) = base / 4096 := by
  rw [family, toNat_ofNat_add hbase hlt hrest]
  omega

theorem address_ofNat_add : address (UInt16.ofNat (base + target)) = target := by
  apply Fin.ext
  rw [val_address, toNat_ofNat_add hbase hlt target.isLt]
  omega

theorem x_ofNat_add : x (UInt16.ofNat (base + (r * 256 + k.toNat))) = r := by
  have hk := k.toNat_lt
  apply Fin.ext
  rw [val_x, toNat_ofNat_add hbase hlt (by omega)]
  omega

theorem byte_ofNat_add : byte (UInt16.ofNat (base + (r * 256 + k.toNat))) = k := by
  have hk := k.toNat_lt
  rw [← UInt8.toNat_inj, Instruction.toNat_byte, toNat_ofNat_add hbase hlt (by omega)]
  omega

end Base

end SuperChip.Word

namespace SuperChip.Instruction

open Word

variable {w : UInt16} {i : Instruction}

-- A word is its digits, or its family with a byte or an address.
theorem ofDigits_eq {a c d : Nat} (hw : w.toNat / 4096 = a) (hc : w.toNat / 16 % 16 = c)
    (hd : w.toNat % 16 = d) : ofDigits a (x w) c d = w := by
  have hlt := w.toNat_lt
  rw [← UInt16.toNat_inj, toNat_ofDigits (by omega) (x w).isLt (by omega) (by omega), val_x]
  omega

theorem ofNat_family_byte {a : Nat} (hw : family w = a) :
    UInt16.ofNat (a * 4096 + x w * 256 + (byte w).toNat) = w := by
  have hlt := w.toNat_lt
  rw [family] at hw
  rw [val_x, toNat_byte, ← UInt16.toNat_inj, UInt16.toNat_ofNat_of_lt']
  · omega
  · simp only [UInt16.size]
    omega

theorem ofNat_family_address {a : Nat} (hw : family w = a) :
    UInt16.ofNat (a * 4096 + address w) = w := by
  have hlt := w.toNat_lt
  rw [family] at hw
  rw [val_address, ← UInt16.toNat_inj, UInt16.toNat_ofNat_of_lt']
  · omega
  · simp only [UInt16.size]
    omega

theorem word_of_ofScreenWord? (hi : ofScreenWord? w = some i) : i.word = w := by
  unfold ofScreenWord? at hi
  split at hi
  · next hscroll =>
    obtain rfl := Option.some.inj hi
    rw [← UInt16.toNat_inj, word, toNat_ofDigits (by decide) (by decide) (by decide) (n w).isLt,
      val_n]
    omega
  · split at hi
    all_goals
      first
      | (obtain rfl := Option.some.inj hi
         apply UInt16.toNat_inj.mp
         simp_all [word])
      | cases hi

theorem word_of_ofRegisterWord? (hw : family w = 8) (hi : ofRegisterWord? w = some i) :
    i.word = w := by
  unfold ofRegisterWord? at hi
  rw [val_n] at hi
  split at hi
  all_goals
    first
    | (obtain rfl := Option.some.inj hi
       next hn => exact ofDigits_eq hw (val_y w).symm hn)
    | cases hi

theorem word_of_ofKeyWord? (hw : family w = 0xE) (hi : ofKeyWord? w = some i) : i.word = w := by
  unfold ofKeyWord? at hi
  rw [toNat_byte] at hi
  split at hi
  all_goals
    first
    | (obtain rfl := Option.some.inj hi
       next hb => exact ofDigits_eq hw (by omega) (by omega))
    | cases hi

theorem word_of_ofDeviceWord? (hw : family w = 0xF) (hi : ofDeviceWord? w = some i) :
    i.word = w := by
  unfold ofDeviceWord? at hi
  rw [toNat_byte] at hi
  split at hi
  all_goals
    first
    | (obtain rfl := Option.some.inj hi
       next hb => exact ofDigits_eq hw (by omega) (by omega))
    | cases hi

-- The digits that are no operand are those of the family and of the pattern.
theorem word_of_ofWord? (hi : ofWord? w = some i) : i.word = w := by
  have hlt := family_lt w
  unfold ofWord? at hi
  split at hi
  case h_16 =>
    refine word_of_ofDeviceWord? ?_ hi
    simp only [imp_false] at *
    omega
  case h_1 => exact word_of_ofScreenWord? hi
  case h_9 hw => exact word_of_ofRegisterWord? hw hi
  case h_15 hw => exact word_of_ofKeyWord? hw hi
  case h_2 hw | h_3 hw | h_11 hw | h_12 hw =>
    obtain rfl := Option.some.inj hi
    exact ofNat_family_address hw
  case h_4 hw | h_5 hw | h_7 hw | h_8 hw | h_13 hw =>
    obtain rfl := Option.some.inj hi
    exact ofNat_family_byte hw
  case h_6 hw | h_10 hw =>
    split at hi
    · next hn =>
      obtain rfl := Option.some.inj hi
      exact ofDigits_eq hw (val_y w).symm ((n_eq_zero_iff w).mp hn)
    · cases hi
  case h_14 hw =>
    obtain rfl := Option.some.inj hi
    exact ofDigits_eq hw (val_y w).symm (val_n w).symm

theorem exists_of_known (hknown : Known w.toNat) : ∃ i, ofWord? w = some i ∧ i.word = w := by
  obtain ⟨i, hi⟩ := Option.isSome_iff_exists.mp ((isSome_ofWord?_iff w).mpr hknown)
  exact ⟨i, hi, word_of_ofWord? hi⟩

theorem ofWord?_word (i : Instruction) : ofWord? i.word = some i := by
  cases i with
  | clear | ret | scrollRight | scrollLeft | exit => rfl
  | useMode super => cases super <;> rfl
  | scrollDown rows =>
    revert rows
    decide
  | jump target | call target | jumpPlus target | point target =>
    simp [ofWord?, word, family_ofNat_add, address_ofNat_add, -UInt16.ofNat_add]
  | skipEq x k | skipNe x k | load x k | increase x k | random x k =>
    have hk := k.toNat_lt
    have hrest : x.val * 256 + k.toNat < 4096 := by omega
    simp [ofWord?, word, Nat.add_assoc, family_ofNat_add, x_ofNat_add, byte_ofNat_add, hrest,
      -UInt16.ofNat_add]
  | draw x y n | skipSame x y | skipDiffer x y =>
    simp [ofWord?, word, family_ofDigits, x_ofDigits, Fin.ext_iff, val_y_ofDigits, val_n_ofDigits]
  | copy x y | or x y | and x y | xor x y | add x y | sub x y | shiftRight x y | subFrom x y
  | shiftLeft x y =>
    simp [ofWord?, ofRegisterWord?, word, family_ofDigits, x_ofDigits, Fin.ext_iff,
      val_y_ofDigits, val_n_ofDigits]
  | skipHeld x | skipFree x =>
    simp [ofWord?, ofKeyWord?, word, family_ofDigits, x_ofDigits, toNat_byte_ofDigits]
  | readDelay x | waitKey x | setDelay x | setSound x | advance x | lowGlyph x | highGlyph x
  | digits x | store x | restore x | saveFlags x | loadFlags x =>
    simp [ofWord?, ofDeviceWord?, word, family_ofDigits, x_ofDigits, toNat_byte_ofDigits]

end SuperChip.Instruction

namespace SuperChip.Machine

variable {m : Machine}

theorem execute_word (dice : Dice) (h : m.WellFormed) (i : Instruction) :
    m.execute dice i.word = (perform dice { m with word := i.word } i).1.wrapPc.done :=
  execute_of_known dice h (Instruction.ofWord?_word i)

end SuperChip.Machine
