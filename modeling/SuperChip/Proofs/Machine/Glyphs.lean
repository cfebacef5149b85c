import SuperChip.Proofs.Machine.Marks
import SuperChip.Proofs.Machine.Sprite

-- The fonts in memory. They stay there as long as no program writes over them, and the words that ask
-- for the glyph of a digit then point at it.
namespace SuperChip

-- The glyph of a digit in a font whose glyphs all have so many rows.
def Font.glyph (font : List UInt8) (rows digit : Nat) : List UInt8 :=
  (font.drop (digit * rows)).take rows

example : Font.glyph Font.low 5 0xA = [0xF0, 0x90, 0xF0, 0x90, 0x90] := rfl

-- A glyph as a sprite: each byte is a row of eight pixels, leftmost pixel first.
def Sprite.ofRows (rows : List UInt8) : Sprite where
  width := 8
  height := rows.length
  set c r := decide ((rows.getD r 0).toNat / 2 ^ (7 - c) % 2 = 1)

namespace Sprite

variable {s s' : Sprite} {mode : Mode} {left top : Nat} {p : Fin 128 × Fin 64} {c r : Nat}

-- Of a sprite only what it has within its size counts.
theorem hits_congr (hwidth : s.width = s'.width) (hheight : s.height = s'.height)
    (hset : ∀ c < s.width, ∀ r < s.height, s.set c r = s'.set c r) :
    s.Hits mode left top p c r ↔ s'.Hits mode left top p c r := by
  unfold Hits
  rw [← hwidth, ← hheight]
  refine and_congr_right fun hc => and_congr_right fun hr => ?_
  rw [hset c hc r hr]

end Sprite

namespace Memory

theorem take_overwrite (bytes : List UInt8) {start : Nat} (new : List UInt8)
    (hs : start ≤ bytes.length) :
    (overwrite bytes start new).take (start + new.length) = bytes.take start ++ new := by
  have hlength : (bytes.take start ++ new).length = start + new.length := by
    rw [List.length_append, List.length_take_of_le hs]
  rw [overwrite, ← hlength, List.take_left]

theorem take_overwrite_of_le (bytes : List UInt8) {start count : Nat} (new : List UInt8)
    (hs : start ≤ bytes.length) (hcount : count ≤ start) :
    (overwrite bytes start new).take count = bytes.take count := by
  have hlength : count ≤ (bytes.take start).length := by rwa [List.length_take_of_le hs]
  rw [overwrite, List.append_assoc, List.take_append_of_le_length hlength, List.take_take,
    Nat.min_eq_left hcount]

theorem getElem_toList (ram : Memory) {a : Nat} (ha : a < ram.toList.length) :
    ram.toList[a] = ram.read a := by
  have haddress : a < 4096 := by rwa [Vector.length_toList] at ha
  simp only [read, Vector.getElem_toList, Fin.getElem_fin, val_onRing_natCast haddress]

end Memory

namespace Machine

variable {m m' : Machine}

-- The two fonts fill memory from its start.
def HasFonts (m : Machine) : Prop := m.ram.toList.take 0xF0 = Font.low ++ Font.high

theorem HasFonts.of_cells (h : HasFonts m)
    (hsame : ∀ address : Address, address.val < 0xF0 →
      m'.ram.read address.val = m.ram.read address.val) : HasFonts m' := by
  refine Eq.trans (List.ext_getElem ?_ ?_) h
  · simp only [List.length_take, Vector.length_toList]
  · intro a ha ha'
    rw [List.length_take, Vector.length_toList] at ha
    rw [List.getElem_take, List.getElem_take, Memory.getElem_toList, Memory.getElem_toList]
    exact hsame ⟨a, by omega⟩ (show a < 0xF0 by omega)

theorem HasFonts.of_ram (h : HasFonts m) (hram : m'.ram = m.ram) : HasFonts m' :=
  h.of_cells fun _ _ => hram ▸ rfl

theorem powerOn_hasFonts : HasFonts powerOn := by
  let zeros : List UInt8 := List.replicate 4096 0
  let withLow := Memory.overwrite zeros Font.lowStart Font.low
  have hlow : withLow.take 80 = Font.low := by
    have hstart : Font.lowStart ≤ zeros.length := Nat.zero_le _
    have htake := Memory.take_overwrite zeros Font.low hstart
    rwa [Font.length_low] at htake
  have hlength : Font.highStart ≤ withLow.length := by
    rw [Memory.length_overwrite _ _ _ (by rw [Font.length_low, List.length_replicate]; decide),
      List.length_replicate]
    decide
  have htake := Memory.take_overwrite withLow Font.high hlength
  rw [Font.length_high] at htake
  rw [HasFonts, powerOn, toList_withFonts]
  exact htake.trans (congrArg (· ++ Font.high) hlow)

-- Programs begin behind the fonts.
theorem HasFonts.withRom (h : HasFonts m) {rom : Array UInt8} (hrom : rom.size ≤ maxRomSize) :
    HasFonts (m.withRom rom) := by
  have hlength : programStart ≤ m.ram.toList.length := by
    rw [Vector.length_toList]
    decide
  rw [HasFonts, toList_withRom m hrom, Memory.take_overwrite_of_le _ _ hlength (by decide)]
  exact h

theorem HasFonts.load (h : HasFonts m) {rom : Array UInt8} (hload : m.load rom = .ok m') :
    HasFonts m' := by
  obtain ⟨hrom, rfl⟩ := eq_withRom_of_load hload
  exact h.withRom hrom

theorem reset_hasFonts (hrom : m.rom.size ≤ maxRomSize) : HasFonts m.reset :=
  (powerOn_hasFonts.withRom hrom).of_ram rfl

-- A word that makes a machine put the digits of a number, or registers, where the fonts are.
def WritesFonts (m : Machine) (word : UInt16) : Prop :=
  ∃ x : Register,
    (word = Word.ofDigits 0xF x 3 3 ∧ ∃ k < 3, (m.index + (k : Nat)) % 4096 < 0xF0) ∨
    (word = Word.ofDigits 0xF x 5 5 ∧ ∃ k < x.val + 1, (m.index + (k : Nat)) % 4096 < 0xF0)

instance (m : Machine) (word : UInt16) : Decidable (m.WritesFonts word) :=
  inferInstanceAs (Decidable (∃ _ : Register, _ ∨ _))

-- No action executes such a word, each taken of the machine that those before it leave.
def SparesFonts (dice : Dice) : Machine → List Action → Prop
  | _, [] => True
  | m, action :: rest =>
    (∀ word ∈ action.word? m, ¬ m.WritesFonts word) ∧ SparesFonts dice (m.act dice action).1 rest

theorem cell_not_mem_parts {i : Instruction} (hspared : ¬ m.WritesFonts i.word) {address : Address}
    (hfont : address.val < 0xF0) : .cell address ∉ i.parts m := by
  intro hmem
  cases i with
  | digits x =>
    obtain ⟨k, hk, hat⟩ := Part.mem_cells.mp hmem
    exact hspared ⟨x, .inl ⟨rfl, k, hk, by omega⟩⟩
  | store x =>
    obtain ⟨k, hk, hat⟩ := Part.mem_cells.mp hmem
    exact hspared ⟨x, .inr ⟨rfl, k, hk, by omega⟩⟩
  | _ => simp [Instruction.parts, Part.registersTo, Part.storedFlagsTo] at hmem

namespace HasFonts

theorem execute (h : HasFonts m) (dice : Dice) (hwell : m.WellFormed) {word : UInt16}
    (hspared : ¬ m.WritesFonts word) : HasFonts (m.execute dice word).1 := by
  cases hi : Instruction.ofWord? word with
  | none =>
    rw [execute_of_unknown dice m hi]
    exact h.of_ram rfl
  | some i =>
    obtain rfl := Instruction.word_of_ofWord? hi
    by_cases hexit : i = .exit
    · -- the one word that writes over all of memory, and puts the fonts back
      subst hexit
      exact (reset_hasFonts hwell.rom_size).of_ram rfl
    · obtain ⟨m', hexecute, hfootprint⟩ := execute_footprint dice hwell hi hexit
      rw [hexecute]
      exact h.of_cells fun address hfont =>
        hfootprint.only (.cell address) (cell_not_mem_parts hspared hfont)

theorem act (h : HasFonts m) (dice : Dice) (hwell : m.WellFormed) {action : Action}
    (hspared : ∀ word ∈ action.word? m, ¬ m.WritesFonts word) : HasFonts (m.act dice action).1 := by
  cases hword : action.word? m with
  | some word =>
    rw [act_of_word dice hword]
    exact h.execute dice hwell (hspared word hword)
  | none =>
    cases action with
    | load rom =>
      cases hload : m.load rom with
      | ok m' =>
        simp only [Machine.act, hload]
        exact h.load hload
      | error cause =>
        simp only [Machine.act, hload]
        exact h
    | execute code => cases hword
    | cycle => cases hword
    | tick => exact h.of_ram rfl
    | reset => exact reset_hasFonts hwell.rom_size
    | shiftRight x y =>
      obtain ⟨carry, byte, hact⟩ := act_shiftRight dice m x y
      rw [hact]
      exact h.of_ram rfl
    | shiftLeft x y =>
      obtain ⟨carry, byte, hact⟩ := act_shiftLeft dice m x y
      rw [hact]
      exact h.of_ram rfl
    | hold keys => exact h.of_ram rfl

theorem run (h : HasFonts m) (dice : Dice) (hwell : m.WellFormed) {actions : List Action}
    (hspared : SparesFonts dice m actions) : HasFonts (m.run dice actions) := by
  induction actions generalizing m with
  | nil => exact h
  | cons action rest ih =>
    exact ih (h.act dice hwell hspared.1) (act_wellFormed dice hwell action) hspared.2

-- Where a byte of a font is found that begins at some address.
theorem read_glyph (h : HasFonts m) {font : List UInt8} {start rows digit : Nat}
    (hfont : ((Font.low ++ Font.high).drop start).take (16 * rows) = font)
    (hend : start + 16 * rows ≤ 0xF0) (hdigit : digit < 16) :
    (List.range rows).map (fun r : Nat => m.ram.read (start + digit * rows + r)) =
      Font.glyph font rows digit := by
  have hlast : digit * rows + rows ≤ 16 * rows := by
    rw [← Nat.succ_mul]
    exact Nat.mul_le_mul_right rows hdigit
  subst hfont
  rw [← show m.ram.toList.take 0xF0 = _ from h, Font.glyph]
  refine List.ext_getElem ?_ ?_
  · simp only [List.length_map, List.length_range, List.length_take, List.length_drop,
      Vector.length_toList]
    omega
  · intro r hr _
    rw [List.length_map, List.length_range] at hr
    simp only [List.getElem_map, List.getElem_range, List.getElem_take, List.getElem_drop,
      Memory.getElem_toList]
    congr 1
    omega

end HasFonts

theorem Drew.congr {s s' : Sprite} {left top : Nat} (h : Drew m s left top m')
    (hhits : ∀ p c r, s.Hits m.mode left top p c r ↔ s'.Hits m.mode left top p c r) :
    Drew m s' left top m' := by
  have hcovers (p : Fin 128 × Fin 64) :
      s.Covers m.mode left top p ↔ s'.Covers m.mode left top p :=
    exists_congr fun c => exists_congr fun r => hhits p c r
  obtain ⟨hlit, honce, hcorner, hone, hzero, hredraw⟩ := h
  simp only [hhits] at honce
  simp only [hcovers] at hlit hone hzero hredraw
  exact ⟨hlit, honce, hcorner, hone, hzero, hredraw⟩

-- The sprite at the index register, if there are those rows.
theorem hits_sprite_iff {n : Nibble} (hn : n ≠ 0) {rows : List UInt8}
    (hrows : (List.range n).map (fun r : Nat => m.ram.read (m.index + r)) = rows) {mode : Mode}
    {left top : Nat} {p : Fin 128 × Fin 64} {c r : Nat} :
    (m.sprite n).Hits mode left top p c r ↔ (Sprite.ofRows rows).Hits mode left top p c r := by
  have hwidth : (m.sprite n).width = 8 := by simp only [sprite, hn, false_and, if_false]
  have hheight : (m.sprite n).height = n.val := if_neg hn
  have hlength : rows.length = n.val := by
    rw [← hrows, List.length_map, List.length_range]
  refine Sprite.hits_congr hwidth (hheight.trans hlength.symm) ?_
  intro c hc r hr
  rw [hwidth] at hc
  rw [hheight] at hr
  have hrow : rows.getD r 0 = m.ram.read (m.index + r) := by
    rw [← hrows, List.getD_eq_getElem?_getD, List.getElem?_map, List.getElem?_range hr]
    rfl
  have hbyte : r * 1 + c / 8 = r := by omega
  simp only [sprite, Sprite.ofRows, hn, false_and, if_false, hbyte, Memory.read_emod, hrow,
    Nat.mod_eq_of_lt hc]

-- Executing a word makes a machine point at the rows of a glyph, and a sprite as high as the glyph
-- that is drawn next is the glyph, wherever it is drawn.
def PointsAt (dice : Dice) (m : Machine) (word : UInt16) (n : Nibble) (glyph : List UInt8) :
    Prop :=
  ∃ m', m.execute dice word = done m' ∧
    (List.range n).map (fun r : Nat => m'.ram.read (m'.index + r)) = glyph ∧
    ∀ x y : Register, ∃ m'', m'.execute dice (Word.ofDigits 0xD x y n) = done m'' ∧
      Drew m' (.ofRows glyph) (m.v.get x).toNat (m.v.get y).toNat m''

theorem pointsAt_of_execute {dice : Dice} {word : UInt16} {n : Nibble} {glyph : List UInt8}
    (hwell : m.WellFormed) (hexecute : m.execute dice word = done m') (hv : m'.v = m.v) (hn : n ≠ 0)
    (hglyph : (List.range n).map (fun r : Nat => m'.ram.read (m'.index + r)) = glyph) :
    PointsAt dice m word n glyph := by
  refine ⟨m', hexecute, hglyph, ?_⟩
  intro x y
  refine ⟨m'.drawn x y n, execute_draw dice (hwell.of_execute hexecute) x y n, ?_⟩
  rw [← hv]
  exact (drawn_drew m' x y n).congr fun p c r => hits_sprite_iff hn hglyph

-- As long as nothing is written over them the fonts stay, and the words for glyphs point at those of
-- the digit that the register has in its lower half.
theorem glyphs_stay (dice : Dice) {rom : Array UInt8} (hrom : rom.size ≤ 3584) :
    ∃ m₀, powerOn.load rom = .ok m₀ ∧ ∀ actions, SparesFonts dice m₀ actions →
      let m := m₀.run dice actions
      m.ram.toList.take 0xF0 = Font.low ++ Font.high ∧
        ∀ x : Register,
          let digit := (m.v.get x).toNat % 16
          PointsAt dice m (Word.ofDigits 0xF x 2 9) 5 (Font.glyph Font.low 5 digit) ∧
          PointsAt dice m (Word.ofDigits 0xF x 3 0) 10 (Font.glyph Font.high 10 digit) := by
  have hload : powerOn.load rom = .ok (powerOn.withRom rom) := load_of_fits hrom
  have hwell₀ := powerOn_wellFormed.load hload
  refine ⟨powerOn.withRom rom, hload, ?_⟩
  intro actions hspared m
  have hwell : m.WellFormed := run_wellFormed dice hwell₀ actions
  have hfonts : HasFonts m := (powerOn_hasFonts.load hload).run dice hwell₀ hspared
  refine ⟨hfonts, ?_⟩
  intro x digit
  have hdigit : digit < 16 := Nat.mod_lt _ (by decide)
  have hlow : ((Font.low ++ Font.high).drop Font.lowStart).take (16 * 5) = Font.low := rfl
  have hhigh : ((Font.low ++ Font.high).drop Font.highStart).take (16 * 10) = Font.high := rfl
  constructor
  · refine pointsAt_of_execute hwell (execute_word dice hwell (.lowGlyph x)) rfl (by decide) ?_
    exact hfonts.read_glyph hlow (by decide) hdigit
  · refine pointsAt_of_execute hwell (execute_word dice hwell (.highGlyph x)) rfl (by decide) ?_
    exact hfonts.read_glyph hhigh (by decide) hdigit

theorem SparesFonts.execute {dice : Dice} {code : Int} {rest : List Action}
    (hword : ¬ m.WritesFonts (.ofInt code))
    (hrest : SparesFonts dice (m.act dice (.execute code)).1 rest) :
    SparesFonts dice m (.execute code :: rest) := by
  refine ⟨?_, hrest⟩
  rintro _ ⟨⟩
  exact hword

-- Two registers are stored at the end of memory and the digits of a number right behind the fonts.
-- After a timer step the program begins anew, and register A is set to 0x1C.
theorem glyphs_stay_written :
    let dice : Dice := fun _ => 0
    let rom : Array UInt8 := #[0x6A, 0x1C]
    let actions : List Action := [.execute 0xAFFE, .execute 0xF155, .execute 0xA0F0,
      .execute 0xF033, .tick, .execute 0x00FD, .execute 0x6A1C]
    rom.size ≤ 3584 ∧ ∃ m₀, powerOn.load rom = .ok m₀ ∧ SparesFonts dice m₀ actions ∧
      let m := m₀.run dice actions
      m.ram.toList.take 0xF0 = Font.low ++ Font.high ∧
        PointsAt dice m 0xFA29 5 [0xF0, 0x80, 0x80, 0x80, 0xF0] ∧
        PointsAt dice m 0xFA30 10 [0x3C, 0xFF, 0xC3, 0xC0, 0xC0, 0xC0, 0xC0, 0xC3, 0xFF, 0x3C] := by
  intro dice rom actions
  obtain ⟨m₀, hload, hglyphs⟩ := glyphs_stay dice (by decide : rom.size ≤ 3584)
  obtain rfl : powerOn.withRom rom = m₀ := (eq_withRom_of_load hload).2.symm
  have hspared : SparesFonts dice (powerOn.withRom rom) actions := by
    refine .execute ?_ <| .execute ?_ <| .execute ?_ <| .execute ?_
      ⟨nofun, .execute ?_ <| .execute ?_ trivial⟩
    all_goals decide +kernel
  have hdigit : ((powerOn.withRom rom).run dice actions).v.get 10 = 0x1C := by
    let before := (powerOn.withRom rom).run dice actions.dropLast
    have hwell : before.WellFormed := run_wellFormed dice (powerOn_wellFormed.load hload) _
    have hrun : (powerOn.withRom rom).run dice actions = (before.execute dice 0x6A1C).1 := rfl
    have hexecute : before.execute dice 0x6A1C = _ := execute_word dice hwell (.load 10 0x1C)
    rw [hrun, hexecute]
    exact Vector.getElem_set_self _
  obtain ⟨hfonts, hpoints⟩ := hglyphs actions hspared
  have hten := hpoints 10
  rw [hdigit] at hten
  exact ⟨by decide, _, hload, hspared, hfonts, hten⟩

end Machine

end SuperChip
