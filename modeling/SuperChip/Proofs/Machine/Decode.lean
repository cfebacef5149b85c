import SuperChip.Proofs.Machine.Bounds

-- The words that are instructions, as a table of patterns, and what becomes of all the other words.
namespace SuperChip.Word

-- The four digits of a word from the top. Of larger numbers these are the digits that count.
def nibbles (bits : Nat) : List Nat :=
  [bits / 4096 % 16, bits / 256 % 16, bits / 16 % 16, bits % 16]

def digit (c : Char) : Nat :=
  if c.isDigit then c.toNat - '0'.toNat else c.toNat - 'A'.toNat + 10

-- Small letters in a pattern stand for any digit.
def fits : List Char → List Nat → Bool
  | c :: pattern, d :: rest => (c.isLower || d == digit c) && fits pattern rest
  | _, _ => true

def patterns : List String :=
  ["00Cn", "00E0", "00EE", "00FB", "00FC", "00FD", "00FE", "00FF", "1nnn", "2nnn", "3xnn", "4xnn",
    "5xy0", "6xnn", "7xnn", "8xy0", "8xy1", "8xy2", "8xy3", "8xy4", "8xy5", "8xy6", "8xy7", "8xyE",
    "9xy0", "Annn", "Bnnn", "Cxnn", "Dxyn", "Ex9E", "ExA1", "Fx07", "Fx0A", "Fx15", "Fx18", "Fx1E",
    "Fx29", "Fx30", "Fx33", "Fx55", "Fx65", "Fx75", "Fx85"]

def Known (bits : Nat) : Prop := ∃ pattern ∈ patterns, fits pattern.toList (nibbles bits)

instance (bits : Nat) : Decidable (Known bits) :=
  inferInstanceAs (Decidable (∃ pattern ∈ patterns, fits pattern.toList (nibbles bits)))

theorem toNat_ofInt (code : Int) : (UInt16.ofInt code).toNat = (code % 65536).toNat := by
  have hmod := Int.emod_lt_of_pos code (b := 65536) (by decide)
  have hpow : (2 ^ 16 : Int) = 65536 := by decide
  rw [UInt16.ofInt, hpow, UInt16.toNat_ofNat_of_lt']
  simp only [UInt16.size]
  omega

end SuperChip.Word

namespace SuperChip.Instruction

open Word

theorem val_n (w : UInt16) : (n w).val = w.toNat % 16 := by
  simp [n, Fin.ofNat]

theorem toNat_byte (w : UInt16) : (byte w).toNat = w.toNat % 256 := by
  simp [byte]

theorem n_eq_zero_iff (w : UInt16) : n w = 0 ↔ w.toNat % 16 = 0 := by
  rw [← val_n, Fin.ext_iff]
  rfl

-- Each family but the simple ones has a test of its own for the rest of the word.
theorem isSome_ofScreenWord? (w : UInt16) :
    (ofScreenWord? w).isSome ↔
      w.toNat / 16 = 0xC ∨ w.toNat = 0xE0 ∨ w.toNat = 0xEE ∨ (0xFB ≤ w.toNat ∧ w.toNat ≤ 0xFF) := by
  unfold ofScreenWord?
  split
  · simp_all
  · split <;> simp_all
    omega

theorem isSome_ofRegisterWord? (w : UInt16) :
    (ofRegisterWord? w).isSome ↔ w.toNat % 16 ≤ 7 ∨ w.toNat % 16 = 0xE := by
  unfold ofRegisterWord?
  rw [val_n]
  split <;> simp_all
  omega

theorem isSome_ofKeyWord? (w : UInt16) :
    (ofKeyWord? w).isSome ↔ w.toNat % 256 = 0x9E ∨ w.toNat % 256 = 0xA1 := by
  unfold ofKeyWord?
  rw [toNat_byte]
  split <;> simp_all

theorem isSome_ofDeviceWord? (w : UInt16) :
    (ofDeviceWord? w).isSome ↔
      w.toNat % 256 ∈ [0x07, 0x0A, 0x15, 0x18, 0x1E, 0x29, 0x30, 0x33, 0x55, 0x65, 0x75, 0x85] := by
  unfold ofDeviceWord?
  rw [toNat_byte]
  split <;> simp_all

theorem byte_eq_iff {bits c d : Nat} (hd : d < 16) :
    (bits / 16 % 16 = c ∧ bits % 16 = d) ↔ bits % 256 = 16 * c + d := by
  omega

theorem family_lt (w : UInt16) : family w < 16 := by
  have hw := w.toNat_lt
  simp only [family]
  omega

theorem isSome_ofWord?_iff (w : UInt16) : (ofWord? w).isSome ↔ Known w.toNat := by
  have hlt := family_lt w
  have htop : w.toNat / 4096 % 16 = family w := Nat.mod_eq_of_lt hlt
  simp only [Known, patterns, List.mem_cons, List.not_mem_nil, or_false, nibbles, htop,
    exists_eq_or_imp, String.reduceToList, fits, Char.reduceIsLower, digit, Char.reduceIsDigit,
    ↓reduceIte, Char.reduceToNat, Nat.sub_self, Bool.false_or, Bool.false_eq_true, Nat.reduceSub,
    Nat.reduceAdd, Bool.true_or, Bool.and_self, Bool.and_true, Bool.and_eq_true, beq_iff_eq,
    Bool.true_and, Nat.zero_add, exists_eq_left]
  unfold ofWord?
  split
  -- in each family only its own patterns are left of the table
  case h_16 =>
    have h : family w = 15 := by
      simp only [imp_false] at *
      omega
    rw [isSome_ofDeviceWord?]
    simp [h, byte_eq_iff]
  all_goals
    rename_i h
    simp [h, ← and_or_left]
  · rw [isSome_ofScreenWord?]
    simp only [family] at h
    omega
  · rw [n_eq_zero_iff]
  · rw [isSome_ofRegisterWord?]
    omega
  · rw [n_eq_zero_iff]
  · rw [isSome_ofKeyWord?]
    omega

end SuperChip.Instruction

namespace SuperChip.Memory

theorem read_emod (ram : Memory) (address : Int) :
    ram.read (address % 4096) = ram.read address := by
  have hv : (onRing 4096 size_pos (address % 4096)).val = (onRing 4096 size_pos address).val :=
    val_onRing_eq_iff.mpr (Int.emod_emod_of_dvd address (Int.dvd_refl 4096))
  simp only [read, Fin.getElem_fin, hv]

theorem toNat_readWord (ram : Memory) (address : Int) :
    (ram.readWord address).toNat =
      (ram.read address).toNat * 256 + (ram.read ((address + 1) % 4096)).toNat := by
  have hhigh := (ram.read address).toNat_lt
  have hlow := (ram.read (address + 1)).toNat_lt
  rw [read_emod]
  simp only [readWord, UInt16.toNat_add, UInt16.toNat_mul, UInt8.toNat_toUInt16,
    UInt16.reduceToNat]
  omega

end SuperChip.Memory

namespace SuperChip.Machine

variable {m : Machine}

-- Words outside the table are refused, and only they are. A refusal names the word and where the
-- machine stood, and the machine remembers the word but is otherwise as it was.
structure DecodesExactly (m : Machine) (word : UInt16) (o : Outcome) : Prop where
  refused_iff : o.2.isSome ↔ ¬ Word.Known word.toNat
  fault_eq : ∀ fault ∈ o.2, fault = .unknownWord word m.pc
  machine_eq : ∀ _fault ∈ o.2, o.1 = { m with word }

theorem execute_decodesExactly (dice : Dice) (h : m.WellFormed) (word : UInt16) :
    DecodesExactly m word (m.execute dice word) := by
  cases hi : Instruction.ofWord? word with
  | none =>
    have hknown : ¬ Word.Known word.toNat := by
      rw [← Instruction.isSome_ofWord?_iff, hi]
      simp
    rw [execute_of_unknown dice m hi]
    refine ⟨by simpa [failed] using hknown, ?_, fun _ _ => rfl⟩
    intro fault hfault
    exact (Option.mem_some.mp hfault).symm
  | some i =>
    have hknown : Word.Known word.toNat := by
      rw [← Instruction.isSome_ofWord?_iff, hi]
      rfl
    rw [execute_of_known dice h hi]
    exact ⟨by simpa [done] using hknown, by simp [done], by simp [done]⟩

-- Of a number that is given as a word the low sixteen bits count, and a cycle takes its word from
-- the two bytes at the program counter.
theorem decoding_exact (dice : Dice) (h : m.WellFormed) (code : Int) :
    ((UInt16.ofInt code).toNat = (code % 65536).toNat ∧
      DecodesExactly m (UInt16.ofInt code) (m.executeCode dice code)) ∧
    (m.nextWord.toNat =
        (m.ram.read m.pc).toNat * 256 + (m.ram.read ((m.pc + 1) % 4096)).toNat ∧
      DecodesExactly m m.nextWord (m.cycle dice)) := by
  refine ⟨⟨?_, execute_decodesExactly dice h _⟩, ?_, execute_decodesExactly dice h _⟩
  · exact Word.toNat_ofInt code
  · exact Memory.toNat_readWord m.ram m.pc

theorem powerOn_refuses_allOnes :
    powerOn.WellFormed ∧ (UInt16.ofInt (-1)).toNat = 0xFFFF ∧ ¬ Word.Known 0xFFFF ∧
      (powerOn.executeCode (fun _ => 0) (-1)).2.isSome := by
  have hexact := (decoding_exact (fun _ => 0) powerOn_wellFormed (-1)).1.2
  have hword : (UInt16.ofInt (-1)).toNat = 0xFFFF := by decide
  have hunknown : ¬ Word.Known 0xFFFF := by decide
  refine ⟨powerOn_wellFormed, hword, hunknown, ?_⟩
  rw [hexact.refused_iff, hword]
  exact hunknown

end SuperChip.Machine
