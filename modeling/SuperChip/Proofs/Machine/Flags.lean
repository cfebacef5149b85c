import SuperChip.Proofs.Machine.Words
import Mathlib.Data.Int.ModEq

-- What arithmetic leaves in the registers. The flag register may itself be an operand, and it may
-- be the register that the result is meant for.
namespace SuperChip.Machine

variable {m m' m'' : Machine}

theorem get_setV (m : Machine) (x r : Register) (byte : UInt8) :
    (m.setV x byte).v.get r = if x = r then byte else m.v.get r := by
  have hset : (m.setV x byte).v.get r = if x.val = r.val then byte else m.v.get r :=
    Vector.getElem_set x.isLt r.isLt
  simp only [hset, Fin.ext_iff]

-- A result in one register and a flag in the flag register, which holds the flag in any case.
structure Reports (m : Machine) (x : Register) (result flagged : Nat) (m' : Machine) : Prop where
  flag_eq : (m'.v.get flag).toNat = flagged
  result_eq : x ≠ flag → (m'.v.get x).toNat = result
  others_eq : ∀ r, r ≠ x → r ≠ flag → m'.v.get r = m.v.get r
  index_eq : m'.index = m.index

theorem Reports.of_eq {x : Register} {result flagged : Nat} (h : Reports m x result flagged m')
    (hv : m''.v = m'.v) (hindex : m''.index = m'.index) : Reports m x result flagged m'' := by
  refine ⟨?_, ?_, ?_, hindex.trans h.index_eq⟩
  · rw [hv, h.flag_eq]
  · intro hx
    rw [hv, h.result_eq hx]
  · intro r hrx hrf
    rw [hv, h.others_eq r hrx hrf]

theorem toNat_bit (b : Bool) : (bit b).toNat = if b then 1 else 0 := by cases b <;> rfl

theorem setWithFlag_reports (m : Machine) (x : Register) (byte : UInt8) (carry : Bool) :
    Reports m x byte.toNat (if carry then 1 else 0) (m.setWithFlag x byte carry) := by
  unfold setWithFlag
  refine ⟨?_, ?_, ?_, rfl⟩
  · rw [get_setV, if_pos rfl, toNat_bit]
  · intro hx
    rw [get_setV, if_neg hx.symm, get_setV, if_pos rfl]
  · intro r hrx hrf
    rw [get_setV, if_neg hrf.symm, get_setV, if_neg hrx.symm]

-- The bit is reported before the register is shifted. If that is the flag register, it is the bit
-- which is shifted.
theorem reports_of_shift (m : Machine) (x : Register) (lost shifted : UInt8 → UInt8) :
    let m₁ := m.setV flag (lost (m.v.get x))
    Reports m x (shifted (m.v.get x)).toNat
      (if x = flag then shifted (lost (m.v.get x)) else lost (m.v.get x)).toNat
      (m₁.setV x (shifted (m₁.v.get x))) := by
  intro m₁
  refine ⟨?_, ?_, ?_, rfl⟩
  · rw [get_setV, get_setV]
    by_cases hx : x = flag
    · rw [if_pos hx, if_pos hx.symm, if_pos hx]
    · rw [if_neg hx, if_neg hx, get_setV, if_pos rfl]
  · intro hx
    rw [get_setV, if_pos rfl, get_setV, if_neg hx.symm]
  · intro r hrx hrf
    rw [get_setV, if_neg hrx.symm, get_setV, if_neg hrf.symm]

-- Two machines that differ in one register at most, and report the same, agree in all the others,
-- and in that one as well if it is the flag register.
theorem Reports.eq_of_setV {x y r : Register} {byte : UInt8} {result flagged : Nat}
    (h : Reports m x result flagged m') (h' : Reports (m.setV y byte) x result flagged m'')
    (hr : r ≠ y ∨ r = flag) : m''.v.get r = m'.v.get r := by
  by_cases hflag : r = flag
  · subst hflag
    rw [← UInt8.toNat_inj, h.flag_eq, h'.flag_eq]
  have hry := hr.resolve_right hflag
  by_cases hx : r = x
  · subst hx
    rw [← UInt8.toNat_inj, h.result_eq hflag, h'.result_eq hflag]
  · rw [h.others_eq r hx hflag, h'.others_eq r hx hflag, get_setV, if_neg hry.symm]

-- Executing a word that works on one register. The register that it names second is of no account.
def WorksOn (dice : Dice) (m : Machine) (word : UInt16) (x y : Register)
    (result flagged : Nat) : Prop :=
  ∃ m', m.execute dice word = done m' ∧ Reports m x result flagged m' ∧
    ∀ byte, y ≠ x → ∃ m'', execute dice (m.setV y byte) word = done m'' ∧
      ∀ r, r ≠ y ∨ r = flag → m''.v.get r = m'.v.get r

-- That is so if what it leaves is a matter of the one register's byte.
theorem worksOn_of_reports (dice : Dice) (h : m.WellFormed) (i : Instruction) (x y : Register)
    (result flagged : UInt8 → Nat)
    (hreports : ∀ m, Reports m x (result (m.v.get x)) (flagged (m.v.get x))
      (perform dice { m with word := i.word } i).1.wrapPc) :
    WorksOn dice m i.word x y (result (m.v.get x)) (flagged (m.v.get x)) := by
  refine ⟨_, execute_word dice h i, hreports m, ?_⟩
  intro byte hy
  have hwell : (m.setV y byte).WellFormed := { h with }
  have hother := hreports (m.setV y byte)
  rw [get_setV, if_neg hy] at hother
  exact ⟨_, execute_word dice hwell i, fun r hr => (hreports m).eq_of_setV hother hr⟩

theorem toNat_shiftRight (byte : UInt8) : (byte >>> 1).toNat = byte.toNat / 2 := by
  rw [UInt8.toNat_shiftRight]
  exact Nat.shiftRight_eq_div_pow _ 1

theorem toNat_shiftLeft (byte : UInt8) : (byte <<< 1).toNat = 2 * byte.toNat % 256 := by
  rw [UInt8.toNat_shiftLeft, UInt8.toNat_one, Nat.shiftLeft_eq, Nat.mul_comm]

theorem toNat_lowBit (byte : UInt8) : (byte &&& 1).toNat = byte.toNat % 2 := by
  rw [UInt8.toNat_and]
  exact Nat.and_one_is_mod _

theorem toNat_highBit (byte : UInt8) : (byte >>> 7).toNat = byte.toNat / 128 := by
  rw [UInt8.toNat_shiftRight]
  exact Nat.shiftRight_eq_div_pow _ 7

theorem shiftRight_reports (m : Machine) (x : Register) :
    Reports m x ((m.v.get x).toNat / 2) (if x = flag then 0 else (m.v.get x).toNat % 2)
      (m.shiftRight x) := by
  have hreports := reports_of_shift m x (· &&& 1) (· >>> 1)
  rw [toNat_shiftRight, apply_ite UInt8.toNat, toNat_shiftRight, toNat_lowBit,
    Nat.div_eq_of_lt (Nat.mod_lt _ (by decide))] at hreports
  exact hreports

theorem shiftLeft_reports (m : Machine) (x : Register) :
    Reports m x (2 * (m.v.get x).toNat % 256)
      (if x = flag then 2 * ((m.v.get x).toNat / 128) else (m.v.get x).toNat / 128)
      (m.shiftLeft x) := by
  have hbyte := (m.v.get x).toNat_lt
  have hreports := reports_of_shift m x (· >>> 7) (· <<< 1)
  rw [toNat_shiftLeft, apply_ite UInt8.toNat, toNat_shiftLeft, toNat_highBit,
    Nat.mod_eq_of_lt (by omega : 2 * ((m.v.get x).toNat / 128) < 256)] at hreports
  exact hreports

-- The lost bit is reported, but for a one that the flag register itself loses: there the flag is
-- shifted as the register's new byte.
theorem shift_flags_exact (dice : Dice) (h : m.WellFormed) (x y : Register) :
    let a := (m.v.get x).toNat
    WorksOn dice m (Word.ofDigits 8 x y 6) x y (a / 2) (if x = flag then 0 else a % 2) ∧
      WorksOn dice m (Word.ofDigits 8 x y 0xE) x y (2 * a % 256)
        (if x = flag then 2 * (a / 128) else a / 128) := by
  constructor
  · exact worksOn_of_reports dice h (.shiftRight x y) x y (fun byte => byte.toNat / 2)
      (fun byte => if x = flag then 0 else byte.toNat % 2)
      fun m => (shiftRight_reports m x).of_eq rfl rfl
  · exact worksOn_of_reports dice h (.shiftLeft x y) x y (fun byte => 2 * byte.toNat % 256)
      (fun byte => if x = flag then 2 * (byte.toNat / 128) else byte.toNat / 128)
      fun m => (shiftLeft_reports m x).of_eq rfl rfl

theorem shift_flags_exact_bothEnds :
    let m := powerOn.setV 1 0x81
    m.WellFormed ∧
      (∃ m', m.execute (fun _ => 0) 0x8126 = done m' ∧ (m'.v.get 1).toNat = 0x40 ∧
        (m'.v.get flag).toNat = 1) ∧
      ∃ m', m.execute (fun _ => 0) 0x812E = done m' ∧ (m'.v.get 1).toNat = 0x02 ∧
        (m'.v.get flag).toNat = 1 := by
  intro m
  have hwell : m.WellFormed := { powerOn_wellFormed with }
  obtain ⟨⟨right, hright, hlow, -⟩, left, hleft, hhigh, -⟩ :=
    shift_flags_exact (fun _ => 0) hwell 1 2
  have hbyte : (m.v.get 1).toNat = 0x81 := rfl
  rw [hbyte] at hlow hhigh
  exact ⟨hwell, ⟨right, hright, hlow.result_eq (by decide), hlow.flag_eq⟩,
    left, hleft, hhigh.result_eq (by decide), hhigh.flag_eq⟩

-- A one that is shifted out of the flag register, to the right and to the left.
theorem shift_of_flag_loses_bit :
    (let m := powerOn.setV 15 0x01
     m.WellFormed ∧ ∃ m', m.execute (fun _ => 0) 0x8F06 = done m' ∧
       (m.v.get 15).toNat % 2 = 1 ∧ (m'.v.get flag).toNat = 0) ∧
    (let m := powerOn.setV 15 0x80
     m.WellFormed ∧ ∃ m', m.execute (fun _ => 0) 0x8F0E = done m' ∧
       (m.v.get 15).toNat / 128 = 1 ∧ (m'.v.get flag).toNat = 2) := by
  constructor
  · intro m
    have hwell : m.WellFormed := { powerOn_wellFormed with }
    have hflag := (shiftRight_reports m 15).flag_eq.trans (if_pos rfl)
    exact ⟨hwell, _, execute_word _ hwell (.shiftRight 15 0), rfl, hflag⟩
  · intro m
    have hwell : m.WellFormed := { powerOn_wellFormed with }
    have hbyte : (m.v.get 15).toNat = 0x80 := rfl
    have hflag := (shiftLeft_reports m 15).flag_eq.trans (if_pos rfl)
    rw [hbyte] at hflag
    exact ⟨hwell, _, execute_word _ hwell (.shiftLeft 15 0), by rw [hbyte], hflag⟩

theorem add_reports (m : Machine) (x y : Register) :
    let a := (m.v.get x).toNat
    let b := (m.v.get y).toNat
    Reports m x ((a + b) % 256) ((a + b) / 256)
      (m.setWithFlag x (m.v.get x + m.v.get y) (a + b > 255)) := by
  intro a b
  have ha := (m.v.get x).toNat_lt
  have hb := (m.v.get y).toNat_lt
  have hcarry : (if decide (a + b > 255) then 1 else 0) = (a + b) / 256 := by
    simp only [decide_eq_true_eq]
    split <;> omega
  have hreports := setWithFlag_reports m x (m.v.get x + m.v.get y) (a + b > 255)
  rw [UInt8.toNat_add, hcarry] at hreports
  exact hreports

-- A difference wraps round, and the flag tells that it did not have to.
theorem sub_reports (m : Machine) (x : Register) (a b : UInt8) :
    Reports m x ((256 + a.toNat - b.toNat) % 256) (if b.toNat ≤ a.toNat then 1 else 0)
      (m.setWithFlag x (a - b) (a ≥ b)) := by
  have hb := b.toNat_lt
  have hreports := setWithFlag_reports m x (a - b) (a ≥ b)
  have hsub : (a - b).toNat = (256 + a.toNat - b.toNat) % 256 := by
    rw [UInt8.toNat_sub]
    congr 1
    omega
  simp only [hsub, ge_iff_le, UInt8.le_iff_toNat_le, decide_eq_true_eq] at hreports
  exact hreports

theorem difference_modEq {a b : Nat} (hb : b < 256) :
    (((256 + a - b) % 256 : Nat) : Int) ≡ a - b [ZMOD 256] := by
  unfold Int.ModEq
  omega

theorem get_advance (m : Machine) (x r : Register) :
    (m.advance x).v.get r =
      if flag = r then bit (m.index + (m.v.get x).toNat > 4095) else m.v.get r :=
  get_setV m flag r _

-- The index register is below 4096, so that no more than one round is lost.
theorem index_advance (h : m.WellFormed) (x : Register) :
    4096 * (((m.advance x).v.get flag).toNat : Int) + (m.advance x).index =
      m.index + (m.v.get x).toNat := by
  have hbyte := (m.v.get x).toNat_lt
  have hindex := h.index_mem
  have hwrapped : (m.advance x).index = (m.index + (m.v.get x).toNat) % 4096 := rfl
  rw [get_advance, if_pos rfl, toNat_bit, hwrapped]
  simp only [decide_eq_true_eq]
  split <;> omega

theorem arithmetic_flags_exact (dice : Dice) (h : m.WellFormed) (x y : Register) :
    let a := (m.v.get x).toNat
    let b := (m.v.get y).toNat
    (∃ m' sum carry, m.execute dice (Word.ofDigits 8 x y 4) = done m' ∧
      256 * carry + sum = a + b ∧ sum < 256 ∧ Reports m x sum carry m') ∧
    (∃ (m' : Machine) (difference : Nat), m.execute dice (Word.ofDigits 8 x y 5) = done m' ∧
      (difference : Int) ≡ a - b [ZMOD 256] ∧ difference < 256 ∧
      Reports m x difference (if b ≤ a then 1 else 0) m') ∧
    (∃ (m' : Machine) (difference : Nat), m.execute dice (Word.ofDigits 8 x y 7) = done m' ∧
      (difference : Int) ≡ b - a [ZMOD 256] ∧ difference < 256 ∧
      Reports m x difference (if a ≤ b then 1 else 0) m') ∧
    (∃ (m' : Machine) (j : Int) (d : Nat), m.execute dice (Word.ofDigits 0xF x 1 0xE) = done m' ∧
      4096 * d + j = m.index + a ∧ 0 ≤ j ∧ j < 4096 ∧ m'.index = j ∧ (m'.v.get flag).toNat = d ∧
      ∀ r, r ≠ flag → m'.v.get r = m.v.get r) := by
  intro a b
  have ha := (m.v.get x).toNat_lt
  have hb := (m.v.get y).toNat_lt
  refine ⟨?_, ?_, ?_, ?_⟩
  · exact ⟨_, (a + b) % 256, (a + b) / 256, execute_word dice h (.add x y), Nat.div_add_mod _ 256,
      Nat.mod_lt _ (by decide), (add_reports m x y).of_eq rfl rfl⟩
  · exact ⟨_, _, execute_word dice h (.sub x y), difference_modEq hb, Nat.mod_lt _ (by decide),
      (sub_reports m x (m.v.get x) (m.v.get y)).of_eq rfl rfl⟩
  · exact ⟨_, _, execute_word dice h (.subFrom x y), difference_modEq ha, Nat.mod_lt _ (by decide),
      (sub_reports m x (m.v.get y) (m.v.get x)).of_eq rfl rfl⟩
  · have hwrapped : 0 ≤ (m.advance x).index ∧ (m.advance x).index < 4096 :=
      emod_mem _ (by decide)
    exact ⟨_, _, _, execute_word dice h (.advance x), index_advance h x, hwrapped.1, hwrapped.2,
      rfl, rfl, fun r hr => (get_advance m x r).trans (if_neg hr.symm)⟩

-- The flag register as the operand that is written, next to another one and to the index register.
theorem arithmetic_flags_exact_intoFlag :
    let m := { (powerOn.setV 15 0xFF).setV 1 0x03 with index := 0xF02 }
    m.WellFormed ∧
      (∃ m', m.execute (fun _ => 0) 0x8F14 = done m' ∧ (m'.v.get flag).toNat = 1) ∧
      (∃ m', m.execute (fun _ => 0) 0x8F15 = done m' ∧ (m'.v.get flag).toNat = 1) ∧
      (∃ m', m.execute (fun _ => 0) 0x8F17 = done m' ∧ (m'.v.get flag).toNat = 0) ∧
      ∃ m', m.execute (fun _ => 0) 0xFF1E = done m' ∧ m'.index = 1 ∧
        (m'.v.get flag).toNat = 1 := by
  intro m
  have hwell : m.WellFormed := { powerOn_wellFormed with index_mem := by decide }
  have ha : (m.v.get 15).toNat = 0xFF := rfl
  have hb : (m.v.get 1).toNat = 0x03 := rfl
  have hindex : m.index = 0xF02 := rfl
  obtain ⟨⟨sum, low, carry, hadd, htotal, hlow, hsum⟩, ⟨sub, _, hsub, -, -, hdiff⟩,
    ⟨subFrom, _, hsubFrom, -, -, hdiff'⟩,
    ⟨advanced, j, out, hadvance, hround, hpos, hlt, hj, hout, -⟩⟩ :=
    arithmetic_flags_exact (fun _ => 0) hwell 15 1
  refine ⟨hwell, ⟨sum, hadd, ?_⟩, ⟨sub, hsub, hdiff.flag_eq⟩, ⟨subFrom, hsubFrom, hdiff'.flag_eq⟩,
    advanced, hadvance, ?_, ?_⟩
  · rw [hsum.flag_eq]
    omega
  · omega
  · omega

end SuperChip.Machine
