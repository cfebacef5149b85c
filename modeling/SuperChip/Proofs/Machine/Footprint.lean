import SuperChip.Proofs.Machine.Words
import SuperChip.Proofs.Machine.Memory
import SuperChip.Proofs.Machine.Picture

-- What each instruction may change of a machine. All the rest it leaves as it was.
namespace SuperChip

-- The parts of a machine, but for the program counter, which is every instruction's to set, and the
-- mark of a changed picture.
inductive Part where
  | word
  | register (x : Register)
  | cell (address : Address)
  | storedFlag (k : Nat)
  | canvas
  | stack
  | sp
  | delay
  | sound
  | mode
  | index
  | rolls
  | keys
  | rom
  deriving DecidableEq

namespace Part

def Same (m m' : Machine) : Part → Prop
  | word => m'.word = m.word
  | register x => m'.v.get x = m.v.get x
  | cell address => m'.ram.read address.val = m.ram.read address.val
  | storedFlag k => m'.flags[k]? = m.flags[k]?
  | canvas => m'.canvas = m.canvas
  | stack => m'.stack = m.stack
  | sp => m'.sp = m.sp
  | delay => m'.delay = m.delay
  | sound => m'.sound = m.sound
  | mode => m'.mode = m.mode
  | index => m'.index = m.index
  | rolls => m'.rolls = m.rolls
  | keys => m'.keys = m.keys
  | rom => m'.rom = m.rom

-- Memory from an address on, all registers up to one, and the flags that registers have.
def cells (start : Int) (count : Nat) : List Part :=
  (List.range count).map fun k : Nat => cell (onRing 4096 Memory.size_pos (start + k))

def registersTo (last : Nat) : List Part :=
  ((List.finRange 16).filter fun x => x.val ≤ last).map register

def storedFlagsTo (last : Nat) : List Part := (List.range (last + 1)).map storedFlag

end Part

open Machine (flag)

-- What an instruction may change. An exit begins everything anew and keeps to no such table.
def Instruction.parts (m : Machine) : Instruction → List Part
  -- 00Cn, 00E0, 00FB, 00FC, Dxyn
  | scrollDown _ | clear | scrollRight | scrollLeft => [.canvas]
  | draw _ _ _ => [.canvas, .register flag]
  -- 2nnn, 00EE
  | call _ => [.stack, .sp]
  | ret => [.sp]
  -- 00FE, 00FF, Fx15, Fx18
  | useMode _ => [.mode]
  | setDelay _ => [.delay]
  | setSound _ => [.sound]
  -- 6xnn, 7xnn, 8xy0 to 8xy3, Fx07, Fx0A, Cxnn
  | load x _ | increase x _ | copy x _ | or x _ | and x _ | xor x _ | readDelay x => [.register x]
  | waitKey x => if m.keys.any id then [.register x] else []
  | random x _ => [.register x, .rolls]
  -- 8xy4, 8xy5, 8xy7, 8xy6, 8xyE
  | add x _ | sub x _ | subFrom x _ => [.register x, .register flag]
  | shiftRight x _ | shiftLeft x _ => [.register flag, .register x]
  -- Annn, Fx29, Fx30, Fx1E
  | point _ | lowGlyph _ | highGlyph _ => [.index]
  | advance _ => [.index, .register flag]
  -- Fx33, Fx55, Fx65, Fx75, Fx85
  | digits _ => Part.cells m.index 3
  | store x => Part.cells m.index (x + 1)
  | restore x => Part.registersTo x
  | saveFlags x => Part.storedFlagsTo (min x.val 7)
  | loadFlags x => Part.registersTo (min x.val 7)
  | exit | jump _ | jumpPlus _ | skipEq _ _ | skipNe _ _ | skipSame _ _ | skipDiffer _ _
  | skipHeld _ | skipFree _ => []

theorem Part.mem_cells {start : Int} {count : Nat} {address : Address} :
    .cell address ∈ cells start count ↔ ∃ k < count, (start + k) % 4096 = address.val := by
  have haddress : ((address.val : Nat) : Int) % 4096 = address.val := by omega
  have hring : ∀ i : Int, onRing 4096 Memory.size_pos i = address ↔ i % 4096 = address.val := by
    intro i
    have hv : (onRing 4096 Memory.size_pos address.val).val = address.val :=
      val_onRing_natCast address.isLt
    rw [Fin.ext_iff, ← hv, val_onRing_eq_iff]
    exact haddress ▸ Iff.rfl
  simp [cells, hring]

theorem Part.mem_registersTo {last : Nat} {x : Register} :
    .register x ∈ registersTo last ↔ x.val ≤ last := by
  simp [registersTo]

theorem Part.mem_storedFlagsTo {last k : Nat} : .storedFlag k ∈ storedFlagsTo last ↔ k ≤ last := by
  simp only [storedFlagsTo, List.mem_map, List.mem_range, storedFlag.injEq, exists_eq_right,
    Nat.lt_succ_iff]

variable {m m' m'' : Machine} {ps qs : List Part}

theorem Part.Same.trans {p : Part} (h : p.Same m m') (h' : p.Same m' m'') : p.Same m m'' := by
  cases p <;> exact Eq.trans h' h

namespace Machine

-- Nothing has changed but, at most, the named parts.
def Only (ps : List Part) (m m' : Machine) : Prop := ∀ p ∉ ps, p.Same m m'

theorem Only.trans (h : Only ps m m') (h' : Only ps m' m'') : Only ps m m'' :=
  fun p hp => Part.Same.trans (h p hp) (h' p hp)

theorem Only.mono (h : Only ps m m') (hsub : ps ⊆ qs) : Only qs m m' :=
  fun p hp => h p fun hmem => hp (hsub hmem)

-- Some parts are changed first and some others after them.
theorem Only.append (h : Only ps m m') (h' : Only qs m' m'') : Only (ps ++ qs) m m'' :=
  (h.mono (List.subset_append_left ps qs)).trans (h'.mono (List.subset_append_right ps qs))

theorem only_pc (m : Machine) (pc : Int) : Only [] m { m with pc } := by
  intro p _
  cases p <;> rfl

theorem Only.next (h : Only ps m m') : Only ps m m'.next :=
  h.trans ((only_pc m' _).mono (List.nil_subset _))

theorem only_registers (m : Machine) {v : Vector UInt8 16}
    (hv : ∀ x, .register x ∉ ps → v.get x = m.v.get x) : Only ps m { m with v } := by
  intro p hp
  cases p with
  | register x => exact hv x hp
  | _ => rfl

theorem only_setV (m : Machine) (x : Register) (byte : UInt8) :
    Only [.register x] m (m.setV x byte) := by
  refine only_registers m ?_
  intro r hr
  refine Vector.getElem_set_ne x.isLt r.isLt ?_
  intro heq
  rw [Fin.ext heq] at hr
  exact hr (List.mem_singleton_self _)

theorem only_setWithFlag (m : Machine) (x : Register) (byte : UInt8) (carry : Bool) :
    Only [.register x, .register flag] m (m.setWithFlag x byte carry) :=
  (only_setV m x byte).append (only_setV _ flag _)

theorem only_memory (m : Machine) (bytes : List UInt8) :
    Only (Part.cells m.index bytes.length) m { m with ram := m.ram.writeAll m.index bytes } := by
  intro p hp
  cases p with
  | cell address =>
    have hne : ∀ k < bytes.length, (m.index + k) % 4096 ≠ (address.val : Int) % 4096 := by
      intro k hk heq
      exact hp (Part.mem_cells.mpr ⟨k, hk, by omega⟩)
    exact Memory.read_writeAll_of_ne m.ram hne
  | _ => rfl

theorem only_scroll (m : Machine) (canvas : Canvas 128 64) :
    Only [.canvas] m (m.scroll canvas) := by
  intro p hp
  cases p <;> first | rfl | simp at hp

theorem only_draw (m : Machine) (x y : Register) (n : Nibble) :
    Only [.canvas, .register flag] m (m.draw x y n) := by
  let t := m.canvas.toggleAll (m.spritePixels x y n)
  have hcanvas : Only [.canvas] m { m with canvas := t.canvas, redraw := m.redraw || t.lighted } :=
    only_scroll m t.canvas
  exact hcanvas.append (only_setV _ flag (bit t.erased))

theorem only_random (m : Machine) (x : Register) (byte : UInt8) (rolls : Nat) :
    Only [.register x, .rolls] m { m.setV x byte with rolls } := by
  have hrolls : Only [.rolls] (m.setV x byte) { m.setV x byte with rolls } := by
    intro p hp
    cases p <;> first | rfl | simp at hp
  exact (only_setV m x byte).append hrolls

theorem only_advance (m : Machine) (x : Register) :
    Only [.index, .register flag] m (m.advance x) := by
  let total := m.index + m.v[x].toNat
  have hindex : Only [.index] m { m with index := total % 4096 } := by
    intro p hp
    cases p <;> first | rfl | simp at hp
  exact hindex.append (only_setV _ flag (bit (total > 4095)))

theorem only_skipOnKey (m : Machine) (x : Register) (wanted : Bool) :
    Only [] m (m.skipOnKey x wanted).1 := by
  unfold skipOnKey
  split
  · exact only_pc m _
  · exact only_pc m m.pc

theorem only_loadNumber (m : Machine) (x : Register) (n : Int) :
    Only [.register x] m (m.loadNumber x n).1 := by
  unfold loadNumber
  split
  · exact (only_setV m x _).next
  · exact (only_pc m m.pc).mono (List.nil_subset _)

theorem only_waitKey (m : Machine) (x : Register) :
    Only (Instruction.parts m (.waitKey x)) m (m.waitKey x).1 := by
  unfold waitKey
  split
  · exact (only_pc m m.pc).mono (List.nil_subset _)
  · next key hkey =>
    have hheld : m.keys.any id = true := by
      rw [← List.findIdx?_isSome, hkey, Option.isSome_some]
    simp only [Instruction.parts, hheld, if_true]
    exact only_loadNumber m x key

theorem only_call (m : Machine) (target : Address) : Only [.stack, .sp] m (m.call target).1 := by
  intro p hp
  unfold call
  split
  · cases p <;> rfl
  · cases p <;> first | rfl | simp at hp

theorem Only.withFlags (h : Only ps m m') (x : Register) : Only ps m (m'.withFlags x).1 := by
  unfold Machine.withFlags
  split
  · exact h.next
  · exact h

theorem flagCount_eq (x : Register) : flagCount x = min x.val 7 + 1 := by
  simp only [flagCount]
  omega

theorem only_saveFlags (m : Machine) (x : Register) :
    Only (Part.storedFlagsTo (min x.val 7)) m (m.saveFlags x).1 := by
  unfold saveFlags
  apply Only.withFlags
  intro p hp
  cases p with
  | storedFlag k =>
    have hcount := flagCount_eq x
    have hk : min x.val 7 < k := by
      rw [Part.mem_storedFlagsTo] at hp
      omega
    have hlength : (m.v.toList.take (min (flagCount x) m.flags.length)).length =
        min (flagCount x) m.flags.length := by
      simp only [List.length_take, Vector.length_toList]
      omega
    simp only [Part.Same]
    rw [List.getElem?_append_right (by omega), List.getElem?_drop, hlength]
    congr 1
    omega
  | _ => rfl

theorem only_loadFlags (m : Machine) (x : Register) :
    Only (Part.registersTo (min x.val 7)) m (m.loadFlags x).1 := by
  unfold loadFlags
  apply Only.withFlags
  refine only_registers m ?_
  intro r hr
  have hout : ¬ r.val < flagCount x := by
    rw [Part.mem_registersTo] at hr
    rw [flagCount_eq]
    omega
  exact (Vector.getElem_ofFn r.isLt).trans (if_neg hout)

theorem only_restore (m : Machine) (x : Register) :
    Only (Part.registersTo x) m (m.restore x) := by
  refine only_registers m ?_
  intro r hr
  have hout : ¬ r ≤ x := fun hle => hr (Part.mem_registersTo.mpr hle)
  exact (Vector.getElem_ofFn r.isLt).trans (if_neg hout)

theorem length_block (v : Vector UInt8 16) (x : Register) :
    (v.toList.take (x.val + 1)).length = x.val + 1 := by
  simp only [List.length_take, Vector.length_toList]
  omega

-- A block of sixteen bytes at most does not reach all the way round to itself.
theorem read_block (ram : Memory) (start : Int) (v : Vector UInt8 16) {x k : Register}
    (hk : k ≤ x) :
    (ram.writeAll start (v.toList.take (x.val + 1))).read (start + k.val) = v.get k := by
  have hlength := length_block v x
  have hle : k.val ≤ x.val := hk
  have hk' : k.val < (v.toList.take (x.val + 1)).length := by omega
  have hread := Memory.read_writeAll ram start (by omega) hk'
  rw [List.getElem_take, Vector.getElem_toList] at hread
  exact hread

-- One case for each instruction, also when it fails.
theorem only_perform (dice : Dice) (m : Machine) {i : Instruction} (hexit : i ≠ .exit) :
    Only (i.parts m) m (m.perform dice i).1 := by
  cases i with
  | exit => exact absurd rfl hexit
  | scrollDown rows => exact (only_scroll m _).next
  | clear => exact (only_scroll m _).next
  | scrollRight => exact (only_scroll m _).next
  | scrollLeft => exact (only_scroll m _).next
  | jump target => exact only_pc m _
  | call target => exact only_call m target
  | jumpPlus target => exact only_pc m _
  | skipEq x byte => exact only_pc m _
  | skipNe x byte => exact only_pc m _
  | skipSame x y => exact only_pc m _
  | skipDiffer x y => exact only_pc m _
  | load x byte => exact (only_setV m x _).next
  | increase x byte => exact (only_setV m x _).next
  | random x mask => exact (only_random m x _ _).next
  | copy x y => exact (only_setV m x _).next
  | or x y => exact (only_setV m x _).next
  | and x y => exact (only_setV m x _).next
  | xor x y => exact (only_setV m x _).next
  | add x y => exact (only_setWithFlag m x _ _).next
  | sub x y => exact (only_setWithFlag m x _ _).next
  | shiftRight x y => exact ((only_setV m flag _).append (only_setV _ x _)).next
  | subFrom x y => exact (only_setWithFlag m x _ _).next
  | shiftLeft x y => exact ((only_setV m flag _).append (only_setV _ x _)).next
  | draw x y n => exact (only_draw m x y n).next
  | skipHeld x => exact only_skipOnKey m x true
  | skipFree x => exact only_skipOnKey m x false
  | readDelay x => exact only_loadNumber m x m.delay
  | waitKey x => exact only_waitKey m x
  | advance x => exact (only_advance m x).next
  | digits x => exact (only_memory m (decimalDigits m.v[x])).next
  | store x =>
    have honly := only_memory m (m.v.toList.take (x.val + 1))
    rw [length_block] at honly
    exact honly.next
  | restore x => exact (only_restore m x).next
  | saveFlags x => exact only_saveFlags m x
  | loadFlags x => exact only_loadFlags m x
  -- the rest changes one thing that has no parts of its own
  | ret | useMode _ | point _ | lowGlyph _ | highGlyph _ | setDelay _ | setSound _ =>
    intro p hp
    cases p <;> first | rfl | simp [Instruction.parts] at hp

theorem redraw_perform (dice : Dice) (hm : m.redraw = true) {i : Instruction} (hexit : i ≠ .exit) :
    (m.perform dice i).1.redraw = true := by
  cases hr : i.repaints with
  | true => exact (perform_repaint dice m hr).1
  | false =>
    cases hd : i.draws with
    | true =>
      cases i with
      | draw x y n => exact Bool.or_eq_true_iff.mpr (.inl hm)
      | _ => cases hd
    | false => exact (sameView_perform dice m hexit hr hd).redraw.trans hm

theorem read_decimalDigits (ram : Memory) (start : Int) (byte : UInt8) :
    let ram' := ram.writeAll start (decimalDigits byte)
    ∃ h t u : Nat, h ≤ 9 ∧ t ≤ 9 ∧ u ≤ 9 ∧ 100 * h + 10 * t + u = byte.toNat ∧
      (ram'.read start).toNat = h ∧ (ram'.read (start + 1)).toNat = t ∧
      (ram'.read (start + 2)).toNat = u := by
  intro ram'
  have hbyte := byte.toNat_lt
  have hlength : (decimalDigits byte).length = 3 := rfl
  have hread (k : Nat) (hk : k < 3) : ram'.read (start + k) = (decimalDigits byte)[k] :=
    Memory.read_writeAll ram start (by omega) (by omega)
  have hfirst : ram'.read start = byte / 100 := by
    have hzero : ram'.read (start + (0 : Nat)) = byte / 100 := hread 0 (by omega)
    simpa using hzero
  have hsecond : ram'.read (start + 1) = byte / 10 % 10 := hread 1 (by omega)
  have hthird : ram'.read (start + 2) = byte % 10 := hread 2 (by omega)
  rw [hfirst, hsecond, hthird]
  refine ⟨_, _, _, ?_, ?_, ?_, ?_, rfl, rfl, rfl⟩
  · simp only [UInt8.toNat_div, UInt8.reduceToNat]
    omega
  · simp only [UInt8.toNat_div, UInt8.toNat_mod, UInt8.reduceToNat]
    omega
  · simp only [UInt8.toNat_mod, UInt8.reduceToNat]
    omega
  · simp only [UInt8.toNat_div, UInt8.toNat_mod, UInt8.reduceToNat]
    omega

-- What becomes of a machine that executes an instruction. The parts that the instruction does not
-- name stay as they were, and a picture that has changed still counts as changed.
structure Footprint (m : Machine) (i : Instruction) (m' : Machine) : Prop where
  only : Only (i.parts m) { m with word := i.word } m'
  redraw : m.redraw = true → m'.redraw = true
  rolls : ∀ x mask, i = .random x mask → m'.rolls = m.rolls + 1
  stored : ∀ x, i = .store x → ∀ k ≤ x, m'.ram.read (m.index + k.val) = m.v.get k
  digits : ∀ x, i = .digits x → ∃ h t u : Nat, h ≤ 9 ∧ t ≤ 9 ∧ u ≤ 9 ∧
    100 * h + 10 * t + u = (m.v.get x).toNat ∧ (m'.ram.read m.index).toNat = h ∧
    (m'.ram.read (m.index + 1)).toNat = t ∧ (m'.ram.read (m.index + 2)).toNat = u

theorem perform_footprint (dice : Dice) (m : Machine) {i : Instruction} (hexit : i ≠ .exit) :
    Footprint m i (perform dice { m with word := i.word } i).1.wrapPc := by
  have hparts : i.parts { m with word := i.word } = i.parts m := by cases i <;> rfl
  have honly := only_perform dice { m with word := i.word } hexit
  rw [hparts] at honly
  refine ⟨honly.trans ((only_pc _ _).mono (List.nil_subset _)), ?_, ?_, ?_, ?_⟩
  · exact fun hm => redraw_perform dice (m := { m with word := i.word }) hm hexit
  · rintro x mask rfl
    rfl
  · rintro x rfl k hk
    exact read_block m.ram m.index m.v hk
  · rintro x rfl
    exact read_decimalDigits m.ram m.index m.v[x]

theorem execute_footprint (dice : Dice) (h : m.WellFormed) {word : UInt16} {i : Instruction}
    (hi : Instruction.ofWord? word = some i) (hexit : i ≠ .exit) :
    ∃ m', m.execute dice word = done m' ∧ Footprint m i m' := by
  have hfootprint := perform_footprint dice m hexit
  rw [Instruction.word_of_ofWord? hi] at hfootprint
  exact ⟨_, execute_of_known dice h hi, hfootprint⟩

-- Every word of the table but 00FD is executed, and changes nothing that its instruction may not
-- change.
theorem executeCode_footprint (dice : Dice) (h : m.WellFormed) {code : Int}
    (hknown : Word.Known (UInt16.ofInt code).toNat) (hexit : UInt16.ofInt code ≠ 0x00FD) :
    ∃ i m', Instruction.ofWord? (UInt16.ofInt code) = some i ∧ i.word = UInt16.ofInt code ∧
      m.executeCode dice code = done m' ∧ Footprint m i m' := by
  obtain ⟨i, hi, hword⟩ := Instruction.exists_of_known hknown
  have hne : i ≠ .exit := by
    rintro rfl
    exact hexit hword.symm
  obtain ⟨m', hexecute, hfootprint⟩ := execute_footprint dice h hi hne
  exact ⟨i, m', hi, hword, hexecute, hfootprint⟩

-- The registers 0 and 1 stored at the last address and at the first.
theorem executeCode_footprint_wrapped :
    let m := { powerOn with index := 0xFFF, v := powerOn.v.set 1 7 }
    m.WellFormed ∧ Word.Known 0xF155 ∧ ∃ m', m.executeCode (fun _ => 0) 0xF155 = done m' ∧
      m'.ram.read 0 = 7 ∧ m'.ram.read 1 = m.ram.read 1 ∧ m'.v.get 1 = m.v.get 1 := by
  intro m
  have hwell : m.WellFormed := { powerOn_wellFormed with index_mem := by decide }
  have hknown : Word.Known (UInt16.ofInt 0xF155).toNat := by decide
  obtain ⟨i, m', hi, -, hexecute, hfootprint⟩ :=
    executeCode_footprint (fun _ => 0) hwell hknown (by decide)
  obtain rfl : i = .store 1 := Option.some.inj (hi.symm.trans rfl)
  refine ⟨hwell, hknown, m', hexecute, ?_, ?_, ?_⟩
  · exact (hfootprint.stored 1 rfl 1 (Nat.le_refl 1)).trans rfl
  · exact hfootprint.only (.cell 1) (by decide)
  · exact hfootprint.only (.register 1) (by decide)

end Machine

end SuperChip
