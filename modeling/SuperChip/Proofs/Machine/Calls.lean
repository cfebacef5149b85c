import SuperChip.Proofs.Machine.Footprint
import Mathlib.Data.List.Induction

-- Calls and returns on a stack of sixteen slots that form a ring. A return finds the address of the
-- call it belongs to as long as no more than sixteen calls were under way at a time, counted from
-- that one, whatever else is on the stack.
namespace SuperChip

open Machine (slots_pos)

-- Which calls have not returned after some words, latest first, each by its position. A return when
-- there is none ends none.
def endOrBegin (calls : List Nat) (position : Nat) (word : UInt16) : List Nat :=
  if Word.family word = 2 then position :: calls
  else if word = 0x00EE then calls.tail else calls

def openCalls (words : List UInt16) : List Nat :=
  words.zipIdx.foldl (fun calls (word, position) => endOrBegin calls position word) []

-- The return at k ends the call at j: that one is the latest which has not returned.
def Matched (words : List UInt16) (j k : Nat) : Prop :=
  words[k]? = some 0x00EE ∧ (openCalls (words.take k)).head? = some j

instance (words : List UInt16) (j k : Nat) : Decidable (Matched words j k) :=
  inferInstanceAs (Decidable (_ ∧ _))

-- How many calls are under way from the call at j on, which counts as well.
def nesting (words : List UInt16) (j : Nat) : Nat :=
  ((openCalls words).filter (j ≤ ·)).length

theorem openCalls_concat (words : List UInt16) (word : UInt16) :
    openCalls (words ++ [word]) = endOrBegin (openCalls words) words.length word := by
  simp [openCalls, List.zipIdx_append]

theorem lt_of_mem_openCalls {words : List UInt16} {j : Nat} (hj : j ∈ openCalls words) :
    j < words.length := by
  induction words using List.reverseRecOn with
  | nil => cases hj
  | append_singleton words word ih =>
    rw [openCalls_concat, endOrBegin] at hj
    rw [List.length_append, List.length_singleton]
    split at hj
    · rcases List.mem_cons.mp hj with rfl | hj
      · omega
      · exact Nat.lt_succ_of_lt (ih hj)
    · split at hj
      · exact Nat.lt_succ_of_lt (ih (List.mem_of_mem_tail hj))
      · exact Nat.lt_succ_of_lt (ih hj)

theorem openCalls_sorted (words : List UInt16) : (openCalls words).Pairwise (· > ·) := by
  induction words using List.reverseRecOn with
  | nil => exact .nil
  | append_singleton words word ih =>
    rw [openCalls_concat, endOrBegin]
    split
    · exact .cons (fun j hj => lt_of_mem_openCalls hj) ih
    · split
      · exact ih.tail
      · exact ih

section Concat

variable {words : List UInt16} {word : UInt16} {j : Nat}

theorem mem_of_mem_concat (hj : j ∈ openCalls (words ++ [word])) (hlt : j < words.length) :
    j ∈ openCalls words := by
  rw [openCalls_concat, endOrBegin] at hj
  split at hj
  · exact (List.mem_cons.mp hj).resolve_left (Nat.ne_of_lt hlt)
  · split at hj
    · exact List.mem_of_mem_tail hj
    · exact hj

-- What is new in the list is a call.
theorem family_of_mem_concat (hj : words.length ∈ openCalls (words ++ [word])) :
    Word.family word = 2 := by
  by_contra hcall
  rw [openCalls_concat, endOrBegin, if_neg hcall] at hj
  split at hj
  · exact Nat.lt_irrefl _ (lt_of_mem_openCalls (List.mem_of_mem_tail hj))
  · exact Nat.lt_irrefl _ (lt_of_mem_openCalls hj)

theorem nesting_pos (hj : j ∈ openCalls words) : 0 < nesting words j :=
  List.length_pos_of_mem (List.mem_filter.mpr ⟨hj, by simp⟩)

theorem nesting_call (hcall : Word.family word = 2) (hj : j ≤ words.length) :
    nesting (words ++ [word]) j = nesting words j + 1 := by
  simp [nesting, openCalls_concat, endOrBegin, hcall, hj]

-- A return that leaves j under way ends a later call.
theorem nesting_ret (hj : j ∈ openCalls (words ++ [0x00EE])) :
    nesting words j = nesting (words ++ [0x00EE]) j + 1 := by
  have hsorted := openCalls_sorted words
  have htail : openCalls (words ++ [0x00EE]) = (openCalls words).tail := openCalls_concat words _
  rw [nesting, nesting, htail]
  rw [htail] at hj
  cases hopen : openCalls words with
  | nil =>
    rw [hopen] at hj
    cases hj
  | cons latest others =>
    rw [hopen, List.tail_cons] at hj
    rw [hopen] at hsorted
    have hle : j ≤ latest := Nat.le_of_lt (List.rel_of_pairwise_cons hsorted hj)
    simp [hle]

theorem nesting_other (hcall : Word.family word ≠ 2) (hret : word ≠ 0x00EE) :
    nesting (words ++ [word]) j = nesting words j := by
  simp [nesting, openCalls_concat, endOrBegin, hcall, hret]

theorem nesting_length (words : List UInt16) : nesting words words.length = 0 := by
  rw [nesting, List.length_eq_zero_iff, List.filter_eq_nil_iff]
  intro j hj
  simpa using lt_of_mem_openCalls hj

-- The latest call has none above it.
theorem nesting_head (hj : (openCalls words).head? = some j) : nesting words j = 1 := by
  have hsorted := openCalls_sorted words
  obtain ⟨others, hopen⟩ := List.head?_eq_some_iff.mp hj
  rw [hopen] at hsorted
  have hnone : others.filter (j ≤ ·) = [] := by
    refine List.filter_eq_nil_iff.mpr ?_
    intro other hother
    have := List.rel_of_pairwise_cons hsorted hother
    simpa using this
  simp [nesting, hopen, hnone]

end Concat

namespace Machine

-- Words executed one after another, as far as they succeed.
def executeAll (dice : Dice) (m : Machine) : List UInt16 → Outcome
  | [] => m.done
  | word :: rest => match m.execute dice word with
    | (m, none) => m.executeAll dice rest
    | (m, some fault) => m.failed fault

variable {dice : Dice} {m m' before : Machine} {word : UInt16} {words : List UInt16} {j depth : Nat}

theorem executeAll_append (h : m.executeAll dice words = done m') (rest : List UInt16) :
    m.executeAll dice (words ++ rest) = m'.executeAll dice rest := by
  induction words generalizing m with
  | nil =>
    obtain rfl : m = m' := congrArg Prod.fst h
    rfl
  | cons first words ih =>
    rw [executeAll] at h
    rw [List.cons_append, executeAll]
    rcases hfirst : m.execute dice first with ⟨next, _ | fault⟩
    · rw [hfirst] at h
      exact ih h
    · rw [hfirst] at h
      cases h

theorem executeAll_singleton (dice : Dice) (m : Machine) (word : UInt16) :
    m.executeAll dice [word] = m.execute dice word := by
  rw [executeAll]
  rcases m.execute dice word with ⟨m', _ | fault⟩ <;> rfl

theorem executeAll_concat (h : m.executeAll dice words = done m') (word : UInt16) :
    m.executeAll dice (words ++ [word]) = m'.execute dice word := by
  rw [executeAll_append h, executeAll_singleton]

-- What is in a slot of the stack. Slots are counted round the ring.
def slotAt (m : Machine) (i : Int) : Int := m.stack.get (onRing 16 slots_pos i)

theorem slotAt_congr (m : Machine) {i j : Int} (hij : i % 16 = j % 16) :
    m.slotAt i = m.slotAt j := by
  have hring : onRing 16 slots_pos i = onRing 16 slots_pos j := Fin.ext (val_onRing_eq_iff.mpr hij)
  simp only [slotAt, hring]

theorem family_word_call (target : Address) :
    Word.family (Instruction.call target).word = 2 := by
  have htarget := target.isLt
  rw [Word.family, Instruction.word, UInt16.toNat_ofNat_of_lt']
  · omega
  · simp only [UInt16.size]
    omega

theorem execute_call (dice : Dice) (h : m.WellFormed) (hcall : Word.family word = 2) :
    ∃ m', m.execute dice word = done m' ∧ m'.sp = (m.sp + 1) % 16 ∧
      ∀ i, m'.slotAt i = if m.sp % 16 = i % 16 then m.pc else m.slotAt i := by
  have hi : Instruction.ofWord? word = some (.call (Word.address word)) := by
    simp only [Instruction.ofWord?, hcall]
  obtain ⟨slot, hslot⟩ := exists_slot h.inBounds
  have hring : (onRing 16 slots_pos m.sp).val = slot.val := by
    rw [hslot, val_onRing_natCast slot.isLt]
  refine ⟨_, execute_of_known dice h hi, ?_, ?_⟩
  · simp only [perform, call, hslot, pick_natCast]
    rfl
  · intro i
    have hplace : slot.val = (onRing 16 slots_pos i).val ↔ m.sp % 16 = i % 16 := by
      rw [← hring]
      exact val_onRing_eq_iff
    have hset : (m.stack.set slot m.pc).get (onRing 16 slots_pos i) =
        if slot.val = (onRing 16 slots_pos i).val then m.pc else m.slotAt i :=
      Vector.getElem_set slot.isLt (onRing 16 slots_pos i).isLt
    simp only [hplace, hslot] at hset
    simp only [perform, call, hslot, pick_natCast]
    exact hset

theorem execute_ret (dice : Dice) (h : m.WellFormed) :
    ∃ m', m.execute dice 0x00EE = done m' ∧ m'.sp = (m.sp - 1) % 16 ∧ m'.stack = m.stack ∧
      m'.pc = (m.slotAt (m.sp - 1) + 2) % 4096 :=
  ⟨_, execute_of_known dice h (i := .ret) rfl, rfl, rfl, rfl⟩

theorem execute_other (dice : Dice) (h : m.WellFormed) (hknown : Word.Known word.toNat)
    (hexit : word ≠ 0x00FD) (hcall : Word.family word ≠ 2) (hret : word ≠ 0x00EE) :
    ∃ m', m.execute dice word = done m' ∧ m'.sp = m.sp ∧ m'.stack = m.stack := by
  obtain ⟨i, hi, hword⟩ := Instruction.exists_of_known hknown
  have hne : i ≠ .exit := by
    rintro rfl
    exact hexit hword.symm
  have hparts : .stack ∉ i.parts m ∧ .sp ∉ i.parts m := by
    cases i with
    | call target => exact absurd (hword ▸ family_word_call target) hcall
    | ret => exact absurd hword.symm hret
    | _ => simp [Instruction.parts, Part.cells, Part.registersTo, Part.storedFlagsTo]
  obtain ⟨m', hexecute, hfootprint⟩ := execute_footprint dice h hi hne
  exact ⟨m', hexecute, hfootprint.only .sp hparts.2, hfootprint.only .stack hparts.1⟩

-- A machine that is so many calls deep into a call that another machine was about to make. The
-- address of that call is still on the stack, where it was put.
structure Inside (before : Machine) (depth : Nat) (m : Machine) : Prop where
  origin : before.WellFormed
  wellFormed : m.WellFormed
  sp_eq : m.sp = (before.sp + depth) % 16
  slot_eq : m.slotAt before.sp = before.pc

theorem execute_enters (dice : Dice) (h : before.WellFormed) (hcall : Word.family word = 2) :
    ∃ m', before.execute dice word = done m' ∧ Inside before 1 m' := by
  obtain ⟨m', hexecute, hsp, hslot⟩ := execute_call dice h hcall
  exact ⟨m', hexecute, h, h.of_execute hexecute, hsp, (hslot before.sp).trans (if_pos rfl)⟩

-- A call writes the slot that many places further on, which is another one if there are not yet
-- sixteen calls.
theorem Inside.call (dice : Dice) (h : Inside before depth m) (hpos : 0 < depth) (hlt : depth < 16)
    (hcall : Word.family word = 2) :
    ∃ m', m.execute dice word = done m' ∧ Inside before (depth + 1) m' := by
  obtain ⟨m', hexecute, hsp, hslot⟩ := execute_call dice h.wellFormed hcall
  have hother : ¬ m.sp % 16 = before.sp % 16 := by
    rw [h.sp_eq]
    omega
  refine ⟨m', hexecute, h.origin, h.wellFormed.of_execute hexecute, ?_, ?_⟩
  · rw [hsp, h.sp_eq]
    push_cast
    omega
  · rw [hslot, if_neg hother]
    exact h.slot_eq

theorem Inside.ret (dice : Dice) (h : Inside before (depth + 1) m) :
    ∃ m', m.execute dice 0x00EE = done m' ∧ Inside before depth m' := by
  obtain ⟨m', hexecute, hsp, hstack, -⟩ := execute_ret dice h.wellFormed
  refine ⟨m', hexecute, h.origin, h.wellFormed.of_execute hexecute, ?_, ?_⟩
  · rw [hsp, h.sp_eq]
    push_cast
    omega
  · rw [slotAt, hstack]
    exact h.slot_eq

theorem Inside.other (dice : Dice) (h : Inside before depth m) (hknown : Word.Known word.toNat)
    (hexit : word ≠ 0x00FD) (hcall : Word.family word ≠ 2) (hret : word ≠ 0x00EE) :
    ∃ m', m.execute dice word = done m' ∧ Inside before depth m' := by
  obtain ⟨m', hexecute, hsp, hstack⟩ :=
    execute_other dice h.wellFormed hknown hexit hcall hret
  refine ⟨m', hexecute, h.origin, h.wellFormed.of_execute hexecute, hsp.trans h.sp_eq, ?_⟩
  rw [slotAt, hstack]
  exact h.slot_eq

theorem Inside.leaves (dice : Dice) (h : Inside before 1 m) :
    ∃ m', m.execute dice 0x00EE = done m' ∧ m'.pc = (before.pc + 2) % 4096 ∧
      m'.sp = before.sp := by
  obtain ⟨m', hexecute, hsp, -, hpc⟩ := execute_ret dice h.wellFormed
  have htop : m.slotAt (m.sp - 1) = before.pc := by
    rw [← h.slot_eq]
    refine slotAt_congr m ?_
    have := h.sp_eq
    omega
  refine ⟨m', hexecute, ?_, ?_⟩
  · rw [hpc, htop]
  · have hbounds := h.origin.sp_mem
    rw [hsp, h.sp_eq]
    omega

theorem executeAll_done (dice : Dice) (h : m.WellFormed)
    (hwords : ∀ word ∈ words, Word.Known word.toNat) :
    ∃ m', m.executeAll dice words = done m' ∧ m'.WellFormed := by
  induction words generalizing m with
  | nil => exact ⟨m, rfl, h⟩
  | cons word rest ih =>
    obtain ⟨hknown, hrest⟩ := List.forall_mem_cons.mp hwords
    obtain ⟨i, hi, -⟩ := Instruction.exists_of_known hknown
    have hexecute := execute_of_known dice h hi
    obtain ⟨m', hall, hwell'⟩ := ih (h.of_execute hexecute) hrest
    refine ⟨m', ?_, hwell'⟩
    rw [executeAll, hexecute]
    exact hall

-- By induction on the words: while a call is under way the machine is inside it, as deep as calls
-- are nested.
theorem inside_of_open (dice : Dice) (h : m.WellFormed)
    (hwords : ∀ word ∈ words, Word.Known word.toNat ∧ word ≠ 0x00FD) (hj : j ∈ openCalls words)
    (hdepth : ∀ t ≤ words.length, j < t → nesting (words.take t) j ≤ 16) :
    ∃ before m', m.executeAll dice (words.take j) = done before ∧
      m.executeAll dice words = done m' ∧ Inside before (nesting words j) m' := by
  induction words using List.reverseRecOn with
  | nil => cases hj
  | append_singleton words word ih =>
    obtain ⟨hbefore, hword⟩ := List.forall_mem_append.mp hwords
    obtain ⟨hknown, hexit⟩ := hword word (List.mem_singleton_self word)
    have hle : j ≤ words.length := by
      simpa [Nat.lt_succ_iff] using lt_of_mem_openCalls hj
    rw [List.take_append_of_le_length hle]
    rcases Nat.eq_or_lt_of_le hle with rfl | hlt
    · -- the call is the last word
      have hcall := family_of_mem_concat hj
      obtain ⟨before, hall, hwell⟩ :=
        executeAll_done dice h fun word hword => (hbefore word hword).1
      obtain ⟨m', hexecute, hinside⟩ := execute_enters dice hwell hcall
      rw [List.take_length, executeAll_concat hall, nesting_call hcall hle, nesting_length]
      exact ⟨before, m', hall, hexecute, hinside⟩
    · have hopen := mem_of_mem_concat hj hlt
      obtain ⟨before, mid, htake, hall, hinside⟩ := ih hbefore hopen fun t ht hjt => by
        have := hdepth t (by rw [List.length_append]; omega) hjt
        rwa [List.take_append_of_le_length ht] at this
      have hpos := nesting_pos hopen
      refine ⟨before, ?_⟩
      rw [executeAll_concat hall]
      by_cases hcall : Word.family word = 2
      · have hlast := hdepth (words ++ [word]).length (Nat.le_refl _) (by simp; omega)
        rw [List.take_length] at hlast
        rw [nesting_call hcall hle] at hlast ⊢
        obtain ⟨m', hexecute, hinside'⟩ := hinside.call dice hpos (by omega) hcall
        exact ⟨m', htake, hexecute, hinside'⟩
      · by_cases hret : word = 0x00EE
        · subst hret
          rw [nesting_ret hj] at hinside
          obtain ⟨m', hexecute, hinside'⟩ := hinside.ret dice
          exact ⟨m', htake, hexecute, hinside'⟩
        · rw [nesting_other hcall hret]
          obtain ⟨m', hexecute, hinside'⟩ := hinside.other dice hknown hexit hcall hret
          exact ⟨m', htake, hexecute, hinside'⟩

-- A return goes past the call that it ends, and leaves the stack pointer where that call found it,
-- if the stack never had to hold more than sixteen calls from that one on.
theorem return_matches_call (dice : Dice) (h : m.WellFormed)
    (hwords : ∀ word ∈ words, Word.Known word.toNat ∧ word ≠ 0x00FD) {k : Nat}
    (hmatch : Matched words j k)
    (hdepth : ∀ t ≤ k, j < t → nesting (words.take t) j ≤ 16) :
    ∃ before after, m.executeAll dice (words.take j) = done before ∧
      m.executeAll dice (words.take (k + 1)) = done after ∧
      after.pc = (before.pc + 2) % 4096 ∧ after.sp = before.sp := by
  obtain ⟨hret, hlatest⟩ := hmatch
  have hj : j ∈ openCalls (words.take k) := List.mem_of_mem_head? hlatest
  have hjk : j < k := Nat.lt_of_lt_of_le (lt_of_mem_openCalls hj) (List.length_take_le k words)
  obtain ⟨before, m', hbefore, hall, hinside⟩ := inside_of_open dice h
    (fun word hword => hwords word (List.mem_of_mem_take hword)) hj fun t ht hjt => by
      have htk : t ≤ k := ht.trans (List.length_take_le k words)
      rw [List.take_take, Nat.min_eq_left htk]
      exact hdepth t htk hjt
  rw [nesting_head hlatest] at hinside
  obtain ⟨after, hexecute, hpc, hsp⟩ := hinside.leaves dice
  refine ⟨before, after, ?_, ?_, hpc, hsp⟩
  · rw [List.take_take, Nat.min_eq_left hjk.le] at hbefore
    exact hbefore
  · rw [List.take_add_one, hret, Option.toList_some, executeAll_concat hall]
    exact hexecute

-- Sixteen calls one inside the other, the last of them on slot fourteen of the ring, and as many
-- returns. The call that came first is the last to end.
theorem return_matches_call_sixteen :
    let m := { powerOn with sp := 15, pc := 0x300 }
    let words := List.replicate 16 0x2400 ++ List.replicate 16 0x00EE
    m.WellFormed ∧ Matched words 0 31 ∧ ∃ after, m.executeAll (fun _ => 0) words = done after ∧
      after.pc = 0x302 ∧ after.sp = 15 := by
  intro m words
  have hwell : m.WellFormed :=
    { powerOn_wellFormed with pc_mem := by decide, sp_mem := by decide }
  have hwords : ∀ word ∈ words, Word.Known word.toNat ∧ word ≠ 0x00FD := by
    intro word hword
    rcases List.mem_append.mp hword with hcall | hret
    · obtain rfl := List.eq_of_mem_replicate hcall
      decide
    · obtain rfl := List.eq_of_mem_replicate hret
      decide
  have hmatch : Matched words 0 31 := by decide +kernel
  have hdepth : ∀ t ≤ 31, 0 < t → nesting (words.take t) 0 ≤ 16 := by decide +kernel
  obtain ⟨before, after, hbefore, hafter, hpc, hsp⟩ :=
    return_matches_call (fun _ => 0) hwell hwords hmatch hdepth
  obtain rfl : m = before := congrArg Prod.fst hbefore
  exact ⟨hwell, hmatch, after, hafter, hpc, hsp⟩

end Machine

end SuperChip
