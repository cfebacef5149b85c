import SuperChip.Proofs.Machine.Marks

-- Blocks of registers that are put away and taken back: in memory, where a block may lie round the
-- end, and in the stored flags, of which there are only eight. What was put away comes back unless
-- its place was written to in between, and nothing else is touched on the way.
namespace SuperChip

-- Bytes that are written where they are already.
theorem Memory.writeAll_eq_self (ram : Memory) {start : Int} {bytes : List UInt8}
    (hsame : ∀ (k : Nat) (hk : k < bytes.length), bytes[k] = ram.read (start + k)) :
    ram.writeAll start bytes = ram := by
  induction bytes generalizing start with
  | nil => rfl
  | cons byte rest ih =>
    have hfirst : ram.write start byte = ram := by
      have hbyte : byte = ram.read start := by simpa using hsame 0 (Nat.zero_lt_succ _)
      rw [hbyte]
      exact Vector.set_getElem_self _
    rw [writeAll, hfirst]
    refine ih ?_
    intro k hk
    have hlater := hsame (k + 1) (Nat.succ_lt_succ hk)
    have hsum : start + (k + 1 : Nat) = start + 1 + k := by omega
    rwa [List.getElem_cons_succ, hsum] at hlater

namespace Machine

variable {m m' : Machine} {k : Nat}

-- Blocks in memory. Neither way can go wrong, on whatever machine.
theorem execute_of_perform {dice : Dice} {i : Instruction}
    (hperform : perform dice { m with word := i.word } i = done m') :
    m.execute dice i.word = done m'.wrapPc := by
  simp only [execute, Instruction.ofWord?_word, hperform, done]

theorem execute_store (dice : Dice) (m : Machine) (x : Register) :
    ∃ stored, m.execute dice (Word.ofDigits 0xF x 5 5) = done stored ∧ stored.v = m.v ∧
      stored.index = m.index ∧
      stored.ram = m.ram.writeAll m.index (m.v.toList.take (x.val + 1)) :=
  ⟨_, execute_of_perform (i := .store x) rfl, rfl, rfl, rfl⟩

theorem get_restore (m : Machine) (x k : Register) :
    (m.restore x).v.get k = if k ≤ x then m.ram.read (m.index + k.val) else m.v.get k :=
  Vector.getElem_ofFn k.isLt

theorem execute_restore (dice : Dice) (m : Machine) (x : Register) :
    ∃ loaded, m.execute dice (Word.ofDigits 0xF x 6 5) = done loaded ∧
      (∀ k, loaded.v.get k = if k ≤ x then m.ram.read (m.index + k.val) else m.v.get k) ∧
      loaded.ram = m.ram ∧ loaded.index = m.index :=
  ⟨_, execute_of_perform (i := .restore x) rfl, get_restore m x, rfl, rfl⟩

theorem writeAll_block (ram : Memory) (start : Int) {v : Vector UInt8 16} {x : Register}
    (hv : ∀ k ≤ x, v.get k = ram.read (start + k.val)) :
    ram.writeAll start (v.toList.take (x.val + 1)) = ram := by
  refine Memory.writeAll_eq_self ram ?_
  intro k hk
  rw [length_block] at hk
  rw [List.getElem_take, Vector.getElem_toList]
  exact hv ⟨k, by omega⟩ (Nat.le_of_lt_succ hk)

-- The stored flags. A word reaches those up to its register, and no further than the last.
theorem withFlags_keeps (m : Machine) (x : Register) :
    (m.withFlags x).1.v = m.v ∧ (m.withFlags x).1.ram = m.ram ∧
      (m.withFlags x).1.flags = m.flags := by
  unfold withFlags
  split <;> exact ⟨rfl, rfl, rfl⟩

theorem getElem?_flags_saveFlags (hlength : m.flags.length = 8) (x : Register) (k : Nat) :
    (m.saveFlags x).1.flags[k]? = if k ≤ min x.val 7 then m.v[k]? else m.flags[k]? := by
  have hcount := flagCount_eq x
  have hsaved : (m.saveFlags x).1.flags =
      m.v.toList.take (flagCount x) ++ m.flags.drop (flagCount x) := by
    rw [saveFlags, (withFlags_keeps _ x).2.2, hlength, Nat.min_eq_left (by omega)]
  have hblock : (m.v.toList.take (flagCount x)).length = flagCount x := by
    simp only [List.length_take, Vector.length_toList]
    omega
  rw [hsaved]
  split
  · rw [List.getElem?_append_left (by omega), List.getElem?_take_of_lt (by omega),
      Vector.getElem?_toList]
  · rw [List.getElem?_append_right (by omega), List.getElem?_drop, hblock]
    congr 1
    omega

theorem get_loadFlags (m : Machine) (x k : Register) :
    (m.loadFlags x).1.v.get k =
      if k.val ≤ min x.val 7 then m.flags.getD k.val (m.v.get k) else m.v.get k := by
  have hcount := flagCount_eq x
  have hreached : k.val ≤ min x.val 7 ↔ k.val < flagCount x := by omega
  rw [loadFlags, (withFlags_keeps _ x).1]
  simp only [hreached]
  exact Vector.getElem_ofFn k.isLt

theorem execute_saveFlags (dice : Dice) (h : m.WellFormed) (x : Register) :
    ∃ saved, m.execute dice (Word.ofDigits 0xF x 7 5) = done saved ∧ saved.v = m.v ∧
      saved.ram = m.ram ∧
      ∀ k : Nat, saved.flags[k]? = if k ≤ min x.val 7 then m.v[k]? else m.flags[k]? := by
  have hflags : ({ m with word := (Instruction.saveFlags x).word } : Machine).flags.length = 8 :=
    h.flags_length
  refine ⟨_, execute_word dice h (.saveFlags x), ?_, ?_, ?_⟩
  · exact (withFlags_keeps _ x).1
  · exact (withFlags_keeps _ x).2.1
  · exact getElem?_flags_saveFlags hflags x

theorem execute_loadFlags (dice : Dice) (h : m.WellFormed) (x : Register) :
    ∃ loaded, m.execute dice (Word.ofDigits 0xF x 8 5) = done loaded ∧ loaded.ram = m.ram ∧
      ∀ k : Register, loaded.v.get k =
        if k.val ≤ min x.val 7 then m.flags.getD k.val (m.v.get k) else m.v.get k := by
  refine ⟨_, execute_word dice h (.loadFlags x), ?_, ?_⟩
  · exact (withFlags_keeps _ x).2.1
  · exact get_loadFlags { m with word := (Instruction.loadFlags x).word } x

-- An action that makes a machine replace one of its stored flags.
def Action.Saves (m : Machine) (k : Nat) (action : Action) : Prop :=
  ∃ x : Register, action.word? m = some (Word.ofDigits 0xF x 7 5) ∧ k ≤ min x.val 7

-- No action replaces a stored flag, each taken of the machine that those before it leave.
def Spares (dice : Dice) (k : Nat) : Machine → List Action → Prop
  | _, [] => True
  | m, action :: rest => ¬ action.Saves m k ∧ Spares dice k (m.act dice action).1 rest

theorem storedFlag_execute (dice : Dice) (h : m.WellFormed) {word : UInt16}
    (hexit : word ≠ 0x00FD)
    (hspared : ∀ x : Register, word = Word.ofDigits 0xF x 7 5 → ¬ k ≤ min x.val 7) :
    (m.execute dice word).1.flags[k]? = m.flags[k]? := by
  cases hi : Instruction.ofWord? word with
  | none =>
    rw [execute_of_unknown dice m hi]
    rfl
  | some i =>
    have hword := Instruction.word_of_ofWord? hi
    have hne : i ≠ .exit := by
      rintro rfl
      exact hexit hword.symm
    have hpart : .storedFlag k ∉ i.parts m := by
      cases i with
      | saveFlags x =>
        rw [Instruction.parts, Part.mem_storedFlagsTo]
        exact hspared x hword.symm
      | _ => simp [Instruction.parts, Part.cells, Part.registersTo]
    obtain ⟨m', hexecute, hfootprint⟩ := execute_footprint dice h hi hne
    rw [hexecute]
    exact hfootprint.only (.storedFlag k) hpart

-- Actions that execute no word leave all stored flags alone.
theorem storedFlag_act (dice : Dice) (h : m.WellFormed) {action : Action}
    (hon : ¬ action.Restarts m) (hspared : ¬ action.Saves m k) :
    (m.act dice action).1.flags[k]? = m.flags[k]? := by
  obtain ⟨hreset, hexit⟩ := not_or.mp hon
  cases hword : action.word? m with
  | some word =>
    rw [act_of_word dice hword]
    refine storedFlag_execute dice h ?_ ?_
    · rintro rfl
      exact hexit hword
    · rintro x rfl hk
      exact hspared ⟨x, hword, hk⟩
  | none =>
    cases action with
    | load rom =>
      by_cases hrom : rom.size ≤ maxRomSize
      · simp only [act, load_of_fits hrom]
        rfl
      · simp only [act, load_of_large (Nat.lt_of_not_le hrom)]
    | execute code => cases hword
    | cycle => cases hword
    | tick => rfl
    | reset => exact absurd rfl hreset
    | shiftRight x y =>
      obtain ⟨carry, byte, hact⟩ := act_shiftRight dice m x y
      rw [hact]
      rfl
    | shiftLeft x y =>
      obtain ⟨carry, byte, hact⟩ := act_shiftLeft dice m x y
      rw [hact]
      rfl
    | hold keys => rfl

theorem storedFlag_run (dice : Dice) (h : m.WellFormed) {actions : List Action}
    (hon : GoesOn dice m actions) (hspared : Spares dice k m actions) :
    (m.run dice actions).flags[k]? = m.flags[k]? := by
  induction actions generalizing m with
  | nil => rfl
  | cons action rest ih =>
    have hfirst := storedFlag_act dice h hon.1 hspared.1
    exact (ih (act_wellFormed dice h action) hon.2 hspared.2).trans hfirst

-- A block that is stored comes back to the same registers as long as memory and the index register
-- are left alone, and one that was loaded is stored where it came from. What a word saves in the
-- flags comes back with a later one to the registers that both reach, whatever is done in between
-- but to begin anew: only flags that another such word has replaced are lost.
theorem blocks_return (dice : Dice) (h : m.WellFormed) (x : Register) :
    (∃ stored, m.execute dice (Word.ofDigits 0xF x 5 5) = done stored ∧ stored.v = m.v ∧
      stored.index = m.index ∧
      ∀ m' : Machine, m'.ram = stored.ram → m'.index = stored.index →
        ∃ loaded, m'.execute dice (Word.ofDigits 0xF x 6 5) = done loaded ∧
          (∀ k, loaded.v.get k = if k ≤ x then m.v.get k else m'.v.get k) ∧
          loaded.index = m.index) ∧
    (∃ loaded stored, m.execute dice (Word.ofDigits 0xF x 6 5) = done loaded ∧
      loaded.execute dice (Word.ofDigits 0xF x 5 5) = done stored ∧ stored.ram = m.ram) ∧
    ∃ saved, m.execute dice (Word.ofDigits 0xF x 7 5) = done saved ∧ saved.v = m.v ∧
      saved.ram = m.ram ∧
      (∀ k : Nat, saved.flags[k]? = if k ≤ min x.val 7 then m.v[k]? else m.flags[k]?) ∧
      ∀ actions, GoesOn dice saved actions → ∀ y : Register,
        let m' := saved.run dice actions
        ∃ loaded, m'.execute dice (Word.ofDigits 0xF y 8 5) = done loaded ∧
          loaded.ram = m'.ram ∧
          (∀ k : Register, min y.val 7 < k.val → loaded.v.get k = m'.v.get k) ∧
          ∀ k : Register, k.val ≤ min x.val 7 → k.val ≤ min y.val 7 →
            Spares dice k.val saved actions → loaded.v.get k = m.v.get k := by
  refine ⟨?_, ?_, ?_⟩
  · obtain ⟨stored, hstore, hv, hindex, hram⟩ := execute_store dice m x
    refine ⟨stored, hstore, hv, hindex, ?_⟩
    intro m' hram' hindex'
    obtain ⟨loaded, hload, hget, -, hkept⟩ := execute_restore dice m' x
    refine ⟨loaded, hload, ?_, by rw [hkept, hindex', hindex]⟩
    intro k
    rw [hget, hram', hindex', hram, hindex]
    split
    · next hk => exact read_block m.ram m.index m.v hk
    · rfl
  · obtain ⟨loaded, hload, hget, hram, hindex⟩ := execute_restore dice m x
    obtain ⟨stored, hstore, -, -, hwritten⟩ := execute_store dice loaded x
    refine ⟨loaded, stored, hload, hstore, ?_⟩
    rw [hwritten, hram, hindex]
    refine writeAll_block m.ram m.index ?_
    intro k hk
    rw [hget, if_pos hk]
  · obtain ⟨saved, hsave, hv, hram, hflags⟩ := execute_saveFlags dice h x
    refine ⟨saved, hsave, hv, hram, hflags, ?_⟩
    intro actions hon y m'
    have hsaved : saved.WellFormed := h.of_execute hsave
    have hwell : m'.WellFormed := run_wellFormed dice hsaved actions
    obtain ⟨loaded, hload, hkept, hget⟩ := execute_loadFlags dice hwell y
    refine ⟨loaded, hload, hkept, ?_, ?_⟩
    · intro k hk
      rw [hget, if_neg (by omega)]
    · intro k hx hy hspared
      have hflag : m'.flags[k.val]? = some (m.v.get k) := by
        rw [storedFlag_run dice hsaved hon hspared, hflags, if_pos hx]
        exact Vector.getElem?_eq_getElem k.isLt
      rw [hget, if_pos hy, List.getD_eq_getElem?_getD, hflag, Option.getD_some]

-- Ten registers that lie round the end of memory, and the flags that these registers have. In between
-- all registers are cleared, and the first two flags are replaced.
theorem blocks_return_wrapped :
    let dice : Dice := fun _ => 0
    let m := { powerOn with index := 0xFFE, v := .ofFn fun k => UInt8.ofNat (k + 1) }
    let actions : List Action := [.execute 0x6500, .tick, .execute 0xF175]
    m.WellFormed ∧
      (∃ stored loaded, m.execute dice 0xF955 = done stored ∧
        execute dice { stored with v := .replicate 16 0 } 0xF965 = done loaded ∧
        loaded.v.get 9 = 10 ∧ loaded.v.get 10 = 0) ∧
      ∃ saved loaded, m.execute dice 0xF975 = done saved ∧ GoesOn dice saved actions ∧
        Spares dice 5 saved actions ∧
        (saved.run dice actions).execute dice 0xF985 = done loaded ∧ loaded.v.get 5 = 6 := by
  intro dice m actions
  have hwell : m.WellFormed := { powerOn_wellFormed with index_mem := by decide }
  obtain ⟨⟨stored, hstore, -, -, hback⟩, -, saved, hsave, -, -, -, hflags⟩ :=
    blocks_return dice hwell 9
  obtain ⟨loaded, hload, hget, -⟩ := hback { stored with v := .replicate 16 0 } rfl rfl
  have hon : GoesOn dice saved actions := by
    simp only [actions, GoesOn, Action.Restarts, Action.word?, reduceCtorEq, false_or]
    decide
  have hspared : Spares dice 5 saved actions := by
    simp only [actions, Spares, Action.Saves, Action.word?]
    decide
  obtain ⟨loaded', hload', -, -, hrestored⟩ := hflags actions hon 9
  refine ⟨hwell, ⟨stored, loaded, hstore, hload, ?_, ?_⟩, saved, loaded', hsave, hon, hspared,
    hload', ?_⟩
  · exact (hget 9).trans rfl
  · exact (hget 10).trans rfl
  · exact (hrestored 5 (by decide) (by decide) hspared).trans rfl

end Machine

end SuperChip
