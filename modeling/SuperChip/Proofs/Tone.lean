import SuperChip.Tone
import Mathlib.Algebra.Order.BigOperators.GroupWithZero.List
import Mathlib.Algebra.Order.Ring.Nat

-- Tones that can be made. The samples of a beep are a block in memory, and there is room for it at
-- every rate and in every number of channels that a sound driver can count.
namespace SuperChip

theorem ok_bind {α β ε : Type} (a : α) (f : α → Except ε β) : (Except.ok a >>= f) = f a := rfl

-- A computation has a result only if its first part has one.
theorem exists_of_bind_eq_ok {α β ε : Type} {x : Except ε α} {f : α → Except ε β} {b : β}
    (h : x >>= f = .ok b) : ∃ a, x = .ok a ∧ f a = .ok b := by
  cases x with
  | error e => nomatch h
  | ok a => exact ⟨a, rfl, h⟩

namespace Block

theorem bytesAlong_of_pos {shape : List Int} {bytes : Nat} (hpos : ∀ n ∈ shape, 0 < n)
    (hroom : bytes * (shape.map Int.toNat).prod < Nat.pow 2 63) :
    bytesAlong bytes shape = .ok (bytes * (shape.map Int.toNat).prod) := by
  induction shape generalizing bytes with
  | nil => rw [bytesAlong, List.map_nil, List.prod_nil, Nat.mul_one]
  | cons n rest ih =>
    have hn := hpos n List.mem_cons_self
    have hrest : ∀ n ∈ rest, 0 < n := fun n hn => hpos n (List.mem_cons_of_mem _ hn)
    have hprod : 0 < (rest.map Int.toNat).prod := by
      apply List.prod_pos
      intro k hk
      obtain ⟨n, hmem, rfl⟩ := List.mem_map.mp hk
      have hn := hrest n hmem
      omega
    rw [List.map_cons, List.prod_cons, ← Nat.mul_assoc] at hroom ⊢
    have hbytes : bytes * n.toNat < Nat.pow 2 63 :=
      Nat.lt_of_le_of_lt (Nat.le_mul_of_pos_right _ hprod) hroom
    rw [bytesAlong, if_neg (by omega), if_neg (by omega), if_neg (Nat.not_le.mpr hbytes)]
    exact ih hrest hroom

-- Of axes that are not empty it only matters how long they are together.
theorem check_of_pos {b : Block} (hpos : ∀ n ∈ b.shape, 0 < n)
    (hword : ∀ n ∈ b.shape, n < 0x8000000000000000)
    (hroom : b.itemSize * (b.shape.map Int.toNat).prod ≤ memory) : b.check = .ok () := by
  have hwords : b.shape.all fitsWord = true := by
    apply List.all_eq_true.mpr
    intro n hn
    have h := hpos n hn
    simp only [fitsWord, Bool.and_eq_true, decide_eq_true_eq]
    exact ⟨by omega, hword n hn⟩
  have hmemory : memory < Nat.pow 2 63 := by decide
  have hbytes := bytesAlong_of_pos hpos (Nat.lt_of_le_of_lt hroom hmemory)
  have henough : ¬ (memory < b.itemSize * (b.shape.map Int.toNat).prod ∧
      (!b.shape.contains 0) = true) := fun h => Nat.not_lt.mpr hroom h.1
  simp only [check, hwords, hbytes]
  exact if_neg henough

end Block

namespace Tone

variable {sampleRate channels : Int}

theorem channels_of_ofAmplitude {period : Nat} {amplitude : Int} {tone : Tone}
    (hmade : ofAmplitude period amplitude channels = .ok tone) : tone.channels = channels := by
  simp only [ofAmplitude] at hmade
  obtain ⟨-, -, hmade⟩ := exists_of_bind_eq_ok hmade
  obtain ⟨-, -, hmade⟩ := exists_of_bind_eq_ok hmade
  obtain ⟨-, -, hmade⟩ := exists_of_bind_eq_ok hmade
  by_cases hmany : channels > 1
  · rw [if_pos hmany] at hmade
    by_cases hword : (!fitsWord channels) = true
    · rw [if_pos hword] at hmade
      nomatch hmade
    · rw [if_neg hword] at hmade
      obtain ⟨-, -, hmade⟩ := exists_of_bind_eq_ok hmade
      exact (congrArg Tone.channels (Except.ok.inj hmade)).symm
  · rw [if_neg hmany] at hmade
    exact (congrArg Tone.channels (Except.ok.inj hmade)).symm

theorem channels_of_beep {tone : Tone} (hbeep : beep sampleRate channels = .ok tone) :
    tone.channels = channels := channels_of_ofAmplitude hbeep

theorem periodOf_mem (hrate : sampleRate < 2 ^ 31) :
    2 ≤ periodOf sampleRate defaultPitch ∧ periodOf sampleRate defaultPitch < 2 ^ 23 := by
  have hdiv : Int.fdiv sampleRate 440 = sampleRate / 440 :=
    Int.fdiv_eq_ediv_of_nonneg _ (by omega)
  simp only [periodOf, defaultPitch, hdiv]
  omega

theorem checkRoom_of_pos {shape : List Int}
    (hword : ∀ n ∈ shape, 0 < n ∧ n < 0x8000000000000000)
    (hroom : (shape.map Int.toNat).prod ≤ 2 ^ 32) : checkRoom shape = .ok () := by
  have hbytes : 2 * (shape.map Int.toNat).prod ≤ Block.memory :=
    Nat.mul_le_mul_left 2 hroom
  have hcheck : Block.check ⟨shape, 2, "int16"⟩ = .ok () :=
    Block.check_of_pos (fun n hn => (hword n hn).1) (fun n hn => (hword n hn).2) hbytes
  rw [checkRoom, hcheck]
  rfl

-- A rate is a number of 31 bits, and channels are counted in a byte.
theorem exists_beep (hrate : sampleRate < 2 ^ 31) (hchannels : channels < 2 ^ 8) :
    ∃ tone, beep sampleRate channels = .ok tone := by
  obtain ⟨hlow, hhigh⟩ := periodOf_mem hrate
  have hone : checkRoom [(periodOf sampleRate defaultPitch : Int)] = .ok () := by
    apply checkRoom_of_pos
    · intro n hn
      rw [List.mem_singleton.mp hn]
      omega
    · rw [List.map_singleton, List.prod_singleton]
      omega
  have hup : checkSample 8191 = .ok () := rfl
  have hdown : checkSample (-8191) = .ok () := rfl
  refine ⟨⟨periodOf sampleRate defaultPitch, 8191, channels⟩, ?_⟩
  by_cases hmany : channels > 1
  · have hword : fitsWord channels = true := by
      simp only [fitsWord, Bool.and_eq_true, decide_eq_true_eq]
      omega
    have hall : checkRoom [(periodOf sampleRate defaultPitch : Int), channels] = .ok () := by
      apply checkRoom_of_pos
      · intro n hn
        simp only [List.mem_cons, List.not_mem_nil, or_false] at hn
        rcases hn with rfl | rfl
        · omega
        · omega
      · have hmul : periodOf sampleRate defaultPitch * channels.toNat ≤ 2 ^ 23 * 2 ^ 8 :=
          Nat.mul_le_mul (by omega) (by omega)
        rw [List.map_cons, List.map_singleton, List.prod_pair, Int.toNat_natCast]
        omega
    simp only [beep, ofAmplitude, hone, hup, hdown, if_pos hmany, hword, hall]
    rfl
  · simp only [beep, ofAmplitude, hone, hup, hdown, if_neg hmany]
    rfl

end Tone

end SuperChip
