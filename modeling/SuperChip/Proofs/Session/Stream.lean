import SuperChip.Proofs.Session.Service

-- What the emulation side reports: pictures and beeps, and at last at most one news of its end,
-- which tells why the loop is over.
namespace SuperChip.Session.Service

variable {α : Type} {s : Service α}

-- The only end that is ever reported is the one that the loop comes to.
theorem Orderly.ending_of_isEnd (h : Orderly s) {event : Event} (hmem : .event event ∈ s.news)
    (hend : event.IsEnd) : ∃ ending, s.ending = some ending ∧ ending.news = [event] := by
  obtain ⟨plain, hplain, hstream⟩ := h.stream
  rw [hstream] at hmem
  obtain ⟨other, hother, heq⟩ := List.mem_map.mp hmem
  obtain rfl := Message.event.inj heq
  rcases List.mem_append.mp hother with hold | hlast
  · exact absurd hend (hplain other hold)
  · cases hending : s.ending with
    | none =>
      rw [hending] at hlast
      cases hlast
    | some ending =>
      rw [hending, Option.elim_some] at hlast
      refine ⟨ending, rfl, ?_⟩
      cases ending with
      | told => rw [Ending.news, List.mem_singleton.mp hlast]
      | stuck fault => rw [Ending.news, List.mem_singleton.mp hlast]
      | cutOff => cases hlast

theorem Orderly.getLast?_news (h : Orderly s) {ending : Ending} (hending : s.ending = some ending)
    {event : Event} (hlast : ending.news = [event]) : s.news.getLast? = some (.event event) := by
  obtain ⟨plain, -, hstream⟩ := h.stream
  rw [hstream, hending, Option.elim_some, hlast, List.map_append]
  exact List.getLast?_concat

-- What the emulation side has reported and what has become of it, at any moment.
structure Reports (s : Service α) : Prop where
  isOver_eq : s.race.emulatorAt.isOver = s.ending.isSome
  stream : ∃ plain : List Event,
    (∀ event ∈ plain, (∃ mode frame, event = .draw mode frame) ∨ ∃ on, event = .beep on) ∧
      s.news = (plain ++ s.ending.elim [] Ending.news).map .event
  told : s.news.getLast? = some (.event .quitAck) ↔ s.ending = some .told
  stuck : (∃ reason, s.news.getLast? = some (.event (.fault reason))) ↔
    ∃ fault, s.ending = some (.stuck fault)
  cutOff : (s.race.emulatorAt.isOver = true ∧ ∀ message ∈ s.news, ¬ message.IsEnd) ↔
    s.ending = some .cutOff
  settled : Settled s.race.session.emulator.fault s.race.session.link.toEmulator s.obeyed s.ending
  accounted : s.obeyed ++ s.waiting = s.ordered
  acted : ∀ deed ∈ s.deeds, deed.after = deed.before.afterOrder (some deed.message)
  ended : s.race.emulatorAt = .ended →
    s.race.session.emulator.running = false ∧ s.race.session.link.toScreen.closed = true

theorem Reports.fault_of_told (h : Reports s) (hending : s.ending = some .told) :
    s.race.session.emulator.fault = none := by
  have hsettled := h.settled
  rw [hending] at hsettled
  exact hsettled.1

theorem Orderly.reports (h : Orderly s) : Reports s := by
  refine { h with stream := ?_, told := ?_, stuck := ?_, cutOff := ?_ }
  · obtain ⟨plain, hplain, hstream⟩ := h.stream
    refine ⟨plain, ?_, hstream⟩
    intro event hevent
    cases event with
    | draw mode frame => exact .inl ⟨mode, frame, rfl⟩
    | beep on => exact .inr ⟨on, rfl⟩
    | quitAck => exact absurd trivial (hplain _ hevent)
    | fault reason => exact absurd trivial (hplain _ hevent)
  · constructor
    · intro hlast
      obtain ⟨ending, hending, hnews⟩ := h.ending_of_isEnd (List.mem_of_getLast? hlast) trivial
      rw [hending]
      cases ending <;> simp_all [Ending.news]
    · intro hending
      exact h.getLast?_news hending rfl
  · constructor
    · rintro ⟨reason, hlast⟩
      obtain ⟨ending, hending, hnews⟩ := h.ending_of_isEnd (List.mem_of_getLast? hlast) trivial
      rw [hending]
      cases ending <;> simp_all [Ending.news]
    · rintro ⟨fault, hending⟩
      exact ⟨fault.message, h.getLast?_news hending rfl⟩
  · constructor
    · rintro ⟨hover, hplain⟩
      obtain ⟨ending, hending⟩ := Option.isSome_iff_exists.mp (h.isOver_eq.symm.trans hover)
      cases ending with
      | told =>
        have hlast := h.getLast?_news hending rfl
        exact absurd trivial (hplain _ (List.mem_of_getLast? hlast))
      | stuck fault =>
        have hlast := h.getLast?_news hending rfl
        exact absurd trivial (hplain _ (List.mem_of_getLast? hlast))
      | cutOff => exact hending
    · intro hending
      refine ⟨by rw [h.isOver_eq, hending]; rfl, ?_⟩
      intro message hmessage hend
      cases message with
      | event event =>
        obtain ⟨ending, hsame, hnews⟩ := h.ending_of_isEnd hmessage hend
        obtain rfl := Option.some.inj (hending.symm.trans hsame)
        cases hnews
      | _ => exact hend

section Moves

variable [Sub α] [LT α] [DecidableLT α]

theorem news_move_of_over (dice : Dice) (hover : s.race.emulatorAt.isOver = true) (move : Move α) :
    (s.move dice move).race.emulatorAt.isOver = true ∧ (s.move dice move).news = s.news := by
  cases move with
  | emulator now =>
    cases hstage : s.race.emulatorAt with
    | closing =>
      simp only [Service.move, Service.emulatorMove, Service.news, Race.emulatorMove, hstage]
      exact ⟨rfl, trivial⟩
    | ended =>
      simp only [Service.move, Service.emulatorMove, Service.news, Race.emulatorMove, hstage]
      exact ⟨rfl, trivial⟩
    | _ =>
      rw [hstage] at hover
      cases hover
  | order message =>
    simp only [Service.move, Service.order]
    split <;> exact ⟨hover, rfl⟩
  | cutOff => exact ⟨hover, rfl⟩
  | collect =>
    simp only [Service.move, Service.collect]
    split <;> exact ⟨hover, rfl⟩

-- Once the loop is over it reports nothing.
theorem news_run_of_over (dice : Dice) (hover : s.race.emulatorAt.isOver = true)
    (moves : List (Move α)) : (s.run dice moves).news = s.news := by
  induction moves generalizing s with
  | nil => rfl
  | cons move rest ih =>
    obtain ⟨hstill, hnews⟩ := news_move_of_over dice hover move
    exact (ih hstill).trans hnews

-- Whatever others send, and whenever they cut the loop off: it reports pictures and beeps, and at
-- last, at most once, its end. The end tells why the loop is over, and once it is over there is
-- nothing more.
theorem news_end_once (dice : Dice) {machine : Machine} (hm : machine.WellFormed)
    (cycleRate timerRate : RateLimiter α) (presenter : Presenter α) {link : Link}
    (hopen : link.toScreen.closed = false)
    (hlink : ∀ message ∈ link.toEmulator.pending, message.IsWhole) (moves : List (Move α))
    (hmoves : ∀ move ∈ moves, move.IsWhole) :
    let s := (started machine cycleRate timerRate presenter link).run dice moves
    Reports s ∧ (s.race.emulatorAt.isOver = true → ∀ later, (s.run dice later).news = s.news) := by
  intro s
  have h : Orderly s := (started_orderly hm cycleRate timerRate presenter hopen hlink).run dice
    moves hmoves
  exact ⟨h.reports, news_run_of_over dice⟩

end Moves

-- A text is waiting at the start; a pause and the end are ordered before the loop begins.
def pausingAndQuitting : List (Move Int) :=
  .order (.control (.pause true)) :: .order (.control .quit) :: .replicate 12 (.emulator 0)

theorem news_end_once_told :
    let idle : RateLimiter Int := ⟨1000, 0⟩
    let link := { Link.fresh with toEmulator.pending := [.text "hello"] }
    let s := (started (Machine.powerOn.withRom #[]) idle idle (.fresh idle) link).run
      (fun _ => 0) pausingAndQuitting
    s.news.getLast? = some (.event .quitAck) ∧ s.race.session.emulator.fault = none ∧
      s.race.session.emulator.running = false ∧ s.race.session.link.toScreen.closed = true := by
  intro idle link s
  have hm : (Machine.powerOn.withRom #[]).WellFormed :=
    Machine.powerOn_wellFormed.withRom (by decide)
  have hending : s.ending = some .told := by decide +kernel
  have hended : s.race.emulatorAt = .ended := by
    have hmatches : (s.race.emulatorAt matches .ended) = true := by decide +kernel
    generalize s.race.emulatorAt = stage at hmatches
    cases stage <;> first | rfl | cases hmatches
  have hlink : ∀ message ∈ link.toEmulator.pending, message.IsWhole := by
    simp [link, Message.IsWhole]
  have hmoves : ∀ move ∈ pausingAndQuitting, move.IsWhole := by
    simp [pausingAndQuitting, Move.IsWhole, Message.IsWhole]
  have hopen : link.toScreen.closed = false := rfl
  have hreports : Reports s :=
    (news_end_once (fun _ => 0) hm idle idle (.fresh idle) hopen hlink pausingAndQuitting hmoves).1
  exact ⟨hreports.told.mpr hending, hreports.fault_of_told hending, hreports.ended hended⟩

end SuperChip.Session.Service
