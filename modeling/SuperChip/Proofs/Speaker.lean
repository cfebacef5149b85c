import SuperChip.Speaker
import SuperChip.Proofs.Tone

-- What is to be heard of a beeper, however it is switched and given up. Its mixer is any that does
-- what it is asked to do while it runs, and that nobody else gives orders to. One that does not run
-- may refuse everything.
namespace SuperChip

namespace Mixer.Library

variable {σ ε : Type} {l : Library σ ε} {looping : σ → Bool} {m : σ}

-- Whether a mixer lets itself be started.
def Starts (l : Library σ ε) (m : σ) (call : Call) : Prop :=
  ∃ format, (l.start m call).2 = .ok format

-- A call is granted, and the mixer runs on. After that the sound that was made last is looping or
-- not.
def Answers (l : Library σ ε) (looping : σ → Bool) (m : σ) (call : Call) (loops : Bool) : Prop :=
  ∃ m', l.ask m call = .ok m' ∧ l.running m' = true ∧ looping m' = loops

-- What a mixer is relied on for. A sound is taken if it is made for the channels that were granted.
-- It is new, so that it is not looping before it is played. Of giving up the mixer it is only known
-- that it does not start a sound.
structure Lawful (l : Library σ ε) (looping : σ → Bool) : Prop where
  start : ∀ m call m' format, l.start m call = (m', .ok format) → l.running m' = true
  makeSound : ∀ m call m' sampleRate channels, l.start m call = (m', .ok (sampleRate, channels)) →
    ∀ tone : Tone, tone.channels = channels → l.Answers looping m' (.makeSound tone) false
  takeChannel : ∀ m, l.running m = true → l.Answers looping m (.takeChannel 0) (looping m)
  play : ∀ m, l.running m = true → l.Answers looping m (.play (-1)) true
  stop : ∀ m, l.running m = true → l.Answers looping m .stop false
  quit : ∀ m, l.running m = true →
    ∃ m', l.ask m .quit = .ok m' ∧ l.running m' = false ∧ (looping m' = true → looping m = true)

theorem running_of_plain_start {m m' : State} {call : Call} {format : Int × Int}
    (hstart : plain.start m call = (m', .ok format)) : m'.running = true := by
  simp only [plain] at hstart
  split at hstart
  · exact (congrArg (·.1.running) hstart).symm
  · nomatch (Prod.mk.inj hstart).2

theorem plain_lawful : plain.Lawful State.looping where
  start := fun _ _ _ _ hstart => running_of_plain_start hstart
  makeSound := by
    intro m call m' sampleRate channels hstart tone _
    have hrunning : m'.running = true := running_of_plain_start hstart
    exact ⟨{ m' with looping := false }, rfl, hrunning, rfl⟩
  takeChannel := fun m hm => ⟨m, rfl, hm, rfl⟩
  play := fun m hm => ⟨{ m with looping := true }, rfl, hm, rfl⟩
  stop := fun m hm => ⟨{ m with looping := false }, rfl, hm, rfl⟩
  quit := fun m _ => ⟨{ m with running := false, looping := false }, rfl, rfl, nofun⟩

-- A mixer that refuses everything unless it runs.
def guarded (l : Library σ Empty) (reason : ε) : Library σ ε where
  start := l.start
  ask m call := if l.running m then (l.ask m call).mapError nofun else .error reason
  running := l.running

theorem ask_guarded {l : Library σ Empty} (reason : ε) {m' : σ} {call : Call}
    (hm : l.running m = true) (hask : l.ask m call = .ok m') :
    (l.guarded reason).ask m call = .ok m' := by
  simp only [guarded, if_pos hm, hask]
  rfl

theorem Answers.guarded {l : Library σ Empty} (reason : ε) {call : Call} {loops : Bool}
    (hm : l.running m = true) (h : l.Answers looping m call loops) :
    (l.guarded reason).Answers looping m call loops := by
  obtain ⟨m', hask, hthen⟩ := h
  exact ⟨m', ask_guarded reason hm hask, hthen⟩

theorem Lawful.guarded {l : Library σ Empty} (hl : l.Lawful looping) (reason : ε) :
    (l.guarded reason).Lawful looping where
  start := hl.start
  makeSound := fun m call m' rate channels hstart tone htone =>
    (hl.makeSound m call m' rate channels hstart tone htone).guarded reason
      (hl.start m call m' _ hstart)
  takeChannel := fun m hm => (hl.takeChannel m hm).guarded reason hm
  play := fun m hm => (hl.play m hm).guarded reason hm
  stop := fun m hm => (hl.stop m hm).guarded reason hm
  quit := fun m hm =>
    have ⟨m', hask, hthen⟩ := hl.quit m hm
    ⟨m', ask_guarded reason hm hask, hthen⟩

theorem askAll_nil : l.askAll m [] = .ok m := rfl

theorem askAll_cons {m' : σ} {call : Call} (hask : l.ask m call = .ok m') (calls : List Call) :
    l.askAll m (call :: calls) = l.askAll m' calls := by
  rw [askAll, List.foldlM_cons, hask]
  rfl

theorem askAll_singleton {m' : σ} {call : Call} (hask : l.ask m call = .ok m') :
    l.askAll m [call] = .ok m' := (askAll_cons hask []).trans askAll_nil

end Mixer.Library

namespace Beeper

open Mixer.Library

variable {σ ε : Type} {l : Mixer.Library σ ε} {looping : σ → Bool} {m : σ} {b : Beeper σ}

section Opening

variable {m' : σ}

theorem openedBy_of_refusal {reason : String} (hstart : l.start m startCall = (m', .error reason)) :
    openedBy l true m = .ok (⟨false, false, none, none, m'⟩, [startCall], [failedNote reason]) := by
  rw [openedBy, hstart]
  rfl

theorem openedBy_of_noTone {sampleRate channels : Int} {cause : Tone.Error}
    (hstart : l.start m startCall = (m', .ok (sampleRate, channels)))
    (hbeep : Tone.beep sampleRate channels = .error cause) :
    openedBy l true m = .error (.noTone cause) := by
  simp only [openedBy, Bool.not_true, Bool.false_eq_true, if_false, hstart]
  rw [hbeep]
  rfl

theorem openedBy_of_beep (hl : l.Lawful looping) {sampleRate channels : Int} {tone : Tone}
    (hstart : l.start m startCall = (m', .ok (sampleRate, channels)))
    (hbeep : Tone.beep sampleRate channels = .ok tone) :
    ∃ m'', openedBy l true m = .ok (⟨true, false, some tone, some 0, m''⟩,
        [startCall, .makeSound tone, .takeChannel 0], [readyNote sampleRate channels]) ∧
      l.running m'' = true ∧ looping m'' = false := by
  obtain ⟨made, hmade, hmadeRuns, hsilent⟩ :=
    hl.makeSound m startCall m' sampleRate channels hstart tone (Tone.channels_of_beep hbeep)
  obtain ⟨m'', htaken, hrunning, hlooping⟩ := hl.takeChannel made hmadeRuns
  have hasked : l.askAll m' [.makeSound tone, .takeChannel 0] = .ok m'' :=
    (askAll_cons hmade _).trans (askAll_singleton htaken)
  refine ⟨m'', ?_, hrunning, hlooping.trans hsilent⟩
  simp only [openedBy, Bool.not_true, Bool.false_eq_true, if_false, hstart]
  rw [hbeep]
  simp only [Except.mapError, ok_bind, hasked]
  rfl

end Opening

section Using

theorem setBy_of_none (hnone : b.tone = none) (on : Bool) :
    b.setBy l on = .ok ({ b with on }, []) := by
  simp only [setBy, hnone, Option.isNone_none, Bool.or_true, if_true]
  rfl

theorem setBy_of_some (hl : l.Lawful looping) (htone : b.tone.isSome = true)
    (hchannel : b.channel.isSome = true) (hrunning : l.running b.mixer = true) (on : Bool) :
    ∃ m', b.setBy l on = .ok ({ b with on, mixer := m' }, [if on then .play (-1) else .stop]) ∧
      l.running m' = true ∧ looping m' = on := by
  have hanswers : l.Answers looping b.mixer (if on then .play (-1) else .stop) on := by
    cases on with
    | true => exact hl.play b.mixer hrunning
    | false => exact hl.stop b.mixer hrunning
  obtain ⟨m', hask, hthen⟩ := hanswers
  have hthere : ¬ (b.channel.isNone || b.tone.isNone) = true := by
    rw [← Option.not_isSome, ← Option.not_isSome, htone, hchannel]
    decide
  refine ⟨m', ?_, hthen⟩
  simp only [setBy, if_neg hthere, askAll_singleton hask, ok_bind]
  rfl

-- The beep is stopped before the mixer is given up.
theorem shutdownBy_of_some (hl : l.Lawful looping) (hchannel : b.channel.isSome = true)
    (hrunning : l.running b.mixer = true) :
    ∃ m', b.shutdownBy l =
        .ok ({ b with tone := none, channel := none, mixer := m' }, [.stop, .quit]) ∧
      l.running m' = false ∧ looping m' = false := by
  obtain ⟨stopped, hstop, hstopRuns, hsilent⟩ := hl.stop b.mixer hrunning
  obtain ⟨m', hquit, hended, hlooping⟩ := hl.quit stopped hstopRuns
  refine ⟨m', ?_, hended, ?_⟩
  · simp only [shutdownBy, hchannel, if_true, askAll_singleton hstop, ok_bind, hstopRuns,
      askAll_singleton hquit]
    rfl
  · rw [hsilent] at hlooping
    exact Bool.eq_false_iff.mpr fun h => nomatch hlooping h

theorem shutdownBy_of_running (hl : l.Lawful looping) (hnone : b.channel = none)
    (hrunning : l.running b.mixer = true) :
    ∃ m', b.shutdownBy l = .ok ({ b with tone := none, channel := none, mixer := m' }, [.quit]) ∧
      l.running m' = false := by
  obtain ⟨m', hquit, hended, -⟩ := hl.quit b.mixer hrunning
  refine ⟨m', ?_, hended⟩
  simp only [shutdownBy, hnone, Option.isSome_none, Bool.false_eq_true, if_false, askAll_nil,
    ok_bind, hrunning, if_true, askAll_singleton hquit]
  rfl

theorem shutdownBy_of_stopped (hnone : b.channel = none) (hstopped : l.running b.mixer = false) :
    b.shutdownBy l = .ok ({ b with tone := none, channel := none }, []) := by
  simp only [shutdownBy, hnone, Option.isSome_none, Bool.false_eq_true, if_false, askAll_nil,
    ok_bind, hstopped]
  rfl

end Using

-- What is done with a beeper once it is there.
inductive Use where
  | set (on : Bool)
  | shutdown
  deriving DecidableEq

def Use.on? : Use → Option Bool
  | .set on => some on
  | .shutdown => none

-- How the switch was set last, if it was set at all.
def lastSet (uses : List Use) : Option Bool := (uses.filterMap Use.on?).getLast?

theorem lastSet_concat_set (uses : List Use) (on : Bool) :
    lastSet (uses ++ [.set on]) = some on := by
  simp [lastSet, Use.on?]

theorem lastSet_concat_shutdown (uses : List Use) :
    lastSet (uses ++ [.shutdown]) = lastSet uses := by
  simp [lastSet, Use.on?]

theorem shutdown_mem_concat_set {uses : List Use} {on : Bool} :
    .shutdown ∈ uses ++ [.set on] ↔ .shutdown ∈ uses := by
  simp

theorem shutdown_mem_concat_shutdown (uses : List Use) : .shutdown ∈ uses ++ [.shutdown] :=
  List.mem_append_right uses (List.mem_singleton_self _)

-- A use, after all that the mixer was asked before.
def useBy (l : Mixer.Library σ ε) (s : Beeper σ × List Mixer.Call) (use : Use) :
    Except ε (Beeper σ × List Mixer.Call) := do
  let (b, calls) ← match use with
    | .set on => s.1.setBy l on
    | .shutdown => s.1.shutdownBy l
  return (b, s.2 ++ calls)

def useAllBy (l : Mixer.Library σ ε) (s : Beeper σ × List Mixer.Call) (uses : List Use) :
    Except ε (Beeper σ × List Mixer.Call) :=
  uses.foldlM (useBy l) s

theorem useBy_set {calls more : List Mixer.Call} {b' : Beeper σ} {on : Bool}
    (hset : b.setBy l on = .ok (b', more)) :
    useBy l (b, calls) (.set on) = .ok (b', calls ++ more) := by
  simp only [useBy, hset, ok_bind]
  rfl

theorem useBy_shutdown {calls more : List Mixer.Call} {b' : Beeper σ}
    (hshutdown : b.shutdownBy l = .ok (b', more)) :
    useBy l (b, calls) .shutdown = .ok (b', calls ++ more) := by
  simp only [useBy, hshutdown, ok_bind]
  rfl

-- How a beeper and its mixer are after some uses. There is a beep if there could be one and it was
-- not given up. A mixer that was given up is not asked for anything any more, so that this is done
-- only once.
structure Follows (l : Mixer.Library σ ε) (looping : σ → Bool) (audible : Prop) (uses : List Use)
    (b : Beeper σ) (calls : List Mixer.Call) : Prop where
  on : b.on = (lastSet uses).getD false
  tone : b.tone.isSome = true ↔ audible ∧ .shutdown ∉ uses
  channel : b.channel.isSome = b.tone.isSome
  running : b.tone.isSome = true → l.running b.mixer = true
  stopped : .shutdown ∈ uses → l.running b.mixer = false
  looping : audible → (looping b.mixer = true ↔ .shutdown ∉ uses ∧ lastSet uses = some true)
  quit : .quit ∈ calls → .shutdown ∈ uses
  once : calls.count .quit ≤ 1

namespace Follows

variable {audible : Prop} {uses : List Use} {calls : List Mixer.Call}

theorem nil (hon : b.on = false) (htone : b.tone.isSome = true ↔ audible)
    (hchannel : b.channel.isSome = b.tone.isSome)
    (hmixer : audible → l.running b.mixer = true ∧ looping b.mixer = false)
    (hquit : .quit ∉ calls) : b.Follows l looping audible [] calls := by
  constructor
  case on => exact hon
  case tone => exact ⟨fun hsome => ⟨htone.mp hsome, List.not_mem_nil⟩, fun h => htone.mpr h.1⟩
  case channel => exact hchannel
  case running => exact fun hsome => (hmixer (htone.mp hsome)).1
  case stopped => exact fun hshutdown => absurd hshutdown List.not_mem_nil
  case looping =>
    intro haudible
    rw [(hmixer haudible).2]
    exact ⟨nofun, fun h => nomatch h.2⟩
  case quit => exact fun hmem => absurd hmem hquit
  case once => rw [List.count_eq_zero.mpr hquit]; exact Nat.zero_le 1

theorem handles (h : b.Follows l looping audible uses calls) :
    (b.tone.isSome = true ∧ b.channel.isSome = true) ∨ (b.tone = none ∧ b.channel = none) := by
  have hchannel := h.channel
  cases htone : b.tone with
  | none =>
    rw [htone] at hchannel
    exact .inr ⟨rfl, Option.not_isSome_iff_eq_none.mp (by rw [hchannel]; nofun)⟩
  | some tone =>
    rw [htone] at hchannel
    exact .inl ⟨rfl, hchannel⟩

theorem tone_eq_none (h : b.Follows l looping audible uses calls)
    (hnone : ¬ audible ∨ .shutdown ∈ uses) : b.tone = none := by
  apply Option.not_isSome_iff_eq_none.mp
  intro hsome
  obtain ⟨haudible, hopen⟩ := h.tone.mp hsome
  cases hnone with
  | inl hdeaf => exact hdeaf haudible
  | inr hshutdown => exact hopen hshutdown

theorem shutdown_mem_of_none (h : b.Follows l looping audible uses calls) (haudible : audible)
    (hnone : b.tone = none) : .shutdown ∈ uses := by
  apply Decidable.byContradiction
  intro hopen
  have hsome := h.tone.mpr ⟨haudible, hopen⟩
  rw [hnone] at hsome
  nomatch hsome

theorem silent (h : b.Follows l looping audible uses calls) (haudible : audible)
    (hshutdown : .shutdown ∈ uses) : looping b.mixer = false :=
  Bool.eq_false_iff.mpr fun hloops => ((h.looping haudible).mp hloops).1 hshutdown

theorem count_quit (h : b.Follows l looping audible uses calls) (hopen : .shutdown ∉ uses) :
    calls.count .quit = 0 :=
  List.count_eq_zero.mpr fun hquit => hopen (h.quit hquit)

-- Switching comes to the same whether the mixer is asked for something or not.
theorem switched (h : b.Follows l looping audible uses calls) {on : Bool} {m' : σ}
    {calls' : List Mixer.Call} (hrunning : b.tone.isSome = true → l.running m' = true)
    (hstopped : .shutdown ∈ uses → l.running m' = false)
    (hlooping : audible → (looping m' = true ↔ .shutdown ∉ uses ∧ on = true))
    (hcount : calls'.count .quit = calls.count .quit) :
    Follows l looping audible (uses ++ [.set on]) { b with on, mixer := m' } calls' := by
  have hmem : .shutdown ∈ uses ++ [.set on] ↔ .shutdown ∈ uses := shutdown_mem_concat_set
  constructor
  case on => rw [lastSet_concat_set]; rfl
  case tone => rw [hmem]; exact h.tone
  case channel => exact h.channel
  case running => exact hrunning
  case stopped => rw [hmem]; exact hstopped
  case looping =>
    intro haudible
    rw [hmem, lastSet_concat_set, Option.some_inj]
    exact hlooping haudible
  case quit =>
    intro hquit
    rw [← List.count_pos_iff, hcount] at hquit
    exact hmem.mpr (h.quit (List.count_pos_iff.mp hquit))
  case once => exact hcount.trans_le h.once

theorem set (hl : l.Lawful looping) (h : b.Follows l looping audible uses calls) (on : Bool) :
    ∃ b' calls', useBy l (b, calls) (.set on) = .ok (b', calls') ∧
      b'.Follows l looping audible (uses ++ [.set on]) calls' := by
  rcases h.handles with ⟨htone, hchannel⟩ | ⟨hnone, -⟩
  · obtain ⟨-, hopen⟩ := h.tone.mp htone
    obtain ⟨m', hset, hrunning, hlooping⟩ := setBy_of_some hl htone hchannel (h.running htone) on
    refine ⟨_, _, useBy_set hset, h.switched (fun _ => hrunning) (absurd · hopen) ?_ ?_⟩
    · intro _
      rw [hlooping]
      exact (and_iff_right hopen).symm
    · have hcall : .quit ∉ [if on = true then Mixer.Call.play (-1) else .stop] := by
        cases on <;> decide
      rw [List.count_append, List.count_eq_zero.mpr hcall, Nat.add_zero]
  · refine ⟨_, _, useBy_set (setBy_of_none hnone on), h.switched h.running h.stopped ?_ ?_⟩
    · intro haudible
      have hshutdown := h.shutdown_mem_of_none haudible hnone
      rw [h.silent haudible hshutdown]
      exact ⟨nofun, fun hopen => absurd hshutdown hopen.1⟩
    · rw [List.append_nil]

-- Giving up comes to the same whether there is a beep, only a mixer that runs, or neither.
theorem givenUp (h : b.Follows l looping audible uses calls) {m' : σ} {calls' : List Mixer.Call}
    (hstopped : l.running m' = false) (hsilent : audible → looping m' = false)
    (honce : calls'.count .quit ≤ 1) :
    Follows l looping audible (uses ++ [.shutdown])
      { b with tone := none, channel := none, mixer := m' } calls' := by
  have hmem := shutdown_mem_concat_shutdown uses
  constructor
  case on => rw [lastSet_concat_shutdown]; exact h.on
  case tone => exact ⟨nofun, fun hopen => absurd hmem hopen.2⟩
  case channel => rfl
  case running => nofun
  case stopped => exact fun _ => hstopped
  case looping =>
    intro haudible
    rw [hsilent haudible]
    exact ⟨nofun, fun hopen => absurd hmem hopen.1⟩
  case quit => exact fun _ => hmem
  case once => exact honce

theorem shutdown (hl : l.Lawful looping) (h : b.Follows l looping audible uses calls) :
    ∃ b' calls', useBy l (b, calls) .shutdown = .ok (b', calls') ∧
      b'.Follows l looping audible (uses ++ [.shutdown]) calls' := by
  rcases h.handles with ⟨htone, hchannel⟩ | ⟨hnone, hchannel⟩
  · obtain ⟨-, hopen⟩ := h.tone.mp htone
    obtain ⟨m', hgiven, hstopped, hsilent⟩ := shutdownBy_of_some hl hchannel (h.running htone)
    refine ⟨_, _, useBy_shutdown hgiven, h.givenUp hstopped (fun _ => hsilent) ?_⟩
    rw [List.count_append, h.count_quit hopen]
    decide
  · cases hrunning : l.running b.mixer with
    | true =>
      have hopen : .shutdown ∉ uses := by
        intro hshutdown
        rw [h.stopped hshutdown] at hrunning
        nomatch hrunning
      obtain ⟨m', hgiven, hstopped⟩ := shutdownBy_of_running hl hchannel hrunning
      refine ⟨_, _, useBy_shutdown hgiven, h.givenUp hstopped ?_ ?_⟩
      · intro haudible
        exact absurd (h.shutdown_mem_of_none haudible hnone) hopen
      · rw [List.count_append, h.count_quit hopen]
        decide
    | false =>
      have hgiven := shutdownBy_of_stopped hchannel hrunning
      refine ⟨_, _, useBy_shutdown hgiven, h.givenUp hrunning ?_ ?_⟩
      · intro haudible
        exact h.silent haudible (h.shutdown_mem_of_none haudible hnone)
      · rw [List.append_nil]
        exact h.once

theorem useAll (hl : l.Lawful looping) (more : List Use)
    (h : b.Follows l looping audible uses calls) :
    ∃ b' calls', useAllBy l (b, calls) more = .ok (b', calls') ∧
      b'.Follows l looping audible (uses ++ more) calls' := by
  induction more generalizing b uses calls with
  | nil => exact ⟨b, calls, rfl, by rwa [List.append_nil]⟩
  | cons use more ih =>
    have hstep : ∃ b' calls', useBy l (b, calls) use = .ok (b', calls') ∧
        b'.Follows l looping audible (uses ++ [use]) calls' := by
      cases use with
      | set on => exact h.set hl on
      | shutdown => exact h.shutdown hl
    obtain ⟨b', calls', huse, h'⟩ := hstep
    obtain ⟨b'', calls'', hall, h''⟩ := ih h'
    refine ⟨b'', calls'', ?_, by rwa [List.append_cons]⟩
    rw [useAllBy, List.foldlM_cons, huse]
    exact hall

end Follows

section Whole

variable {enabled : Bool} {calls : List Mixer.Call} {notes : List Log.Entry}

-- Opening fails only if no tone can be made for what is granted.
theorem openedBy_cases (hl : l.Lawful looping) (enabled : Bool) (m : σ) :
    (∃ b calls notes, openedBy l enabled m = .ok (b, calls, notes) ∧
      b.Follows l looping (enabled = true ∧ l.Starts m startCall) [] calls) ∨
    ∃ m' sampleRate channels cause, l.start m startCall = (m', .ok (sampleRate, channels)) ∧
      Tone.beep sampleRate channels = .error cause ∧
      openedBy l enabled m = .error (.noTone cause) := by
  cases enabled with
  | false =>
    refine .inl ⟨_, [], [silentNote], rfl, .nil rfl ?_ rfl ?_ List.not_mem_nil⟩
    · exact ⟨nofun, fun h => nomatch h.1⟩
    · exact fun h => nomatch h.1
  | true =>
    cases hstart : l.start m startCall with
    | mk m' granted =>
      cases granted with
      | error reason =>
        have hnone : ¬ l.Starts m startCall := by
          rintro ⟨format, hformat⟩
          rw [hstart] at hformat
          nomatch hformat
        refine .inl ⟨_, _, _, openedBy_of_refusal hstart, .nil rfl ?_ rfl ?_ (by decide)⟩
        · exact ⟨nofun, fun h => absurd h.2 hnone⟩
        · exact fun h => absurd h.2 hnone
      | ok format =>
        obtain ⟨sampleRate, channels⟩ := format
        have hstarts : l.Starts m startCall := ⟨(sampleRate, channels), by rw [hstart]⟩
        cases hbeep : Tone.beep sampleRate channels with
        | error cause =>
          exact .inr ⟨m', sampleRate, channels, cause, rfl, hbeep, openedBy_of_noTone hstart hbeep⟩
        | ok tone =>
          obtain ⟨m'', hopened, hmixer⟩ := openedBy_of_beep hl hstart hbeep
          refine .inl ⟨_, _, _, hopened, .nil rfl ?_ rfl ?_ (by simp [startCall])⟩
          · exact ⟨fun _ => ⟨rfl, hstarts⟩, fun _ => rfl⟩
          · exact fun _ => hmixer

theorem openedBy_follows (hl : l.Lawful looping)
    (hopened : openedBy l enabled m = .ok (b, calls, notes)) :
    b.Follows l looping (enabled = true ∧ l.Starts m startCall) [] calls := by
  rcases openedBy_cases hl enabled m with ⟨b', calls', notes', hopened', h⟩ | hfailed
  · obtain ⟨rfl, hthen⟩ := Prod.mk.inj (Except.ok.inj (hopened.symm.trans hopened'))
    obtain ⟨rfl, -⟩ := Prod.mk.inj hthen
    exact h
  · obtain ⟨_, _, _, _, -, -, hfailed⟩ := hfailed
    nomatch hopened.symm.trans hfailed

-- There is a beeper, unless more is granted than a tone can be made for; sound drivers do not count
-- that far. Whatever is done with a beeper, nothing is refused, and its switch is as it was set
-- last. The beep is looping just when that was on, and a mixer was wanted, could be started and was
-- not given up.
theorem beep_follows_switch (hl : l.Lawful looping) (enabled : Bool) (m : σ) :
    ((∃ opening, openedBy l enabled m = .ok opening) ∨
      ∃ m' sampleRate channels cause, l.start m startCall = (m', .ok (sampleRate, channels)) ∧
        (2 ^ 31 ≤ sampleRate ∨ 2 ^ 8 ≤ channels) ∧ Tone.beep sampleRate channels = .error cause ∧
        openedBy l enabled m = .error (.noTone cause)) ∧
    ∀ b calls notes, openedBy l enabled m = .ok (b, calls, notes) → ∀ uses : List Use,
      ∃ b' calls', useAllBy l (b, calls) uses = .ok (b', calls') ∧
        b'.on = (lastSet uses).getD false ∧
        (b.tone.isSome = true ∧ looping b'.mixer = true ↔
          enabled = true ∧ l.Starts m startCall ∧ .shutdown ∉ uses ∧ lastSet uses = some true) ∧
        (.shutdown ∈ uses ∨ ¬ (enabled = true ∧ l.Starts m startCall) →
          ∀ on, b'.setBy l on = .ok ({ b' with on }, [])) ∧
        calls'.count .quit ≤ 1 ∧
        (.quit ∈ calls' → b.tone.isSome = true → looping b'.mixer = false) := by
  constructor
  · rcases openedBy_cases hl enabled m with ⟨b, calls, notes, hopened, -⟩ | hfailed
    · exact .inl ⟨(b, calls, notes), hopened⟩
    · obtain ⟨m', sampleRate, channels, cause, hstart, hbeep, hfailed⟩ := hfailed
      refine .inr ⟨m', sampleRate, channels, cause, hstart, ?_, hbeep, hfailed⟩
      apply Decidable.byContradiction
      intro hsmall
      have hrate : sampleRate < 2 ^ 31 := by omega
      have hchannels : channels < 2 ^ 8 := by omega
      obtain ⟨tone, hmade⟩ := Tone.exists_beep hrate hchannels
      nomatch hmade.symm.trans hbeep
  · intro b calls notes hopened uses
    have hfirst := openedBy_follows hl hopened
    obtain ⟨b', calls', hused, h⟩ := hfirst.useAll hl uses
    rw [List.nil_append] at h
    have haudible : b.tone.isSome = true ↔ enabled = true ∧ l.Starts m startCall :=
      hfirst.tone.trans (and_iff_left List.not_mem_nil)
    refine ⟨b', calls', hused, h.on, ?_, ?_, h.once, ?_⟩
    · rw [haudible, ← and_assoc]
      exact and_congr_right h.looping
    · intro hnone on
      exact setBy_of_none (h.tone_eq_none hnone.symm) on
    · intro hquit hsome
      exact h.silent (haudible.mp hsome) (h.quit hquit)

-- A mixer that somebody else has started already, in stereo.
def stereo : Mixer.State := ⟨⟨.ok (48000, 2), true⟩, false⟩

def strict : Mixer.Library Mixer.State String := plain.guarded "mixer not initialized"

-- The mixer refuses everything once it was given up, but it is not asked for anything any more.
theorem beep_follows_switch_released :
    strict.Lawful Mixer.State.looping ∧
      ∃ b calls notes, openedBy strict true stereo = .ok (b, calls, notes) ∧
        (∃ b' calls', useAllBy strict (b, calls) [.set true] = .ok (b', calls') ∧
          b'.mixer.looping = true) ∧
        ∃ b' calls',
          useAllBy strict (b, calls) [.set true, .shutdown, .set true] = .ok (b', calls') ∧
            b'.on = true ∧ b'.mixer.looping = false ∧ calls'.count .quit ≤ 1 ∧
            b'.setBy strict false = .ok ({ b' with on := false }, []) := by
  have hl : strict.Lawful Mixer.State.looping := plain_lawful.guarded "mixer not initialized"
  have hgranted : strict.start stereo startCall = (stereo, .ok (48000, 2)) := rfl
  have hstarts : strict.Starts stereo startCall := ⟨(48000, 2), rfl⟩
  obtain ⟨hopens, hthen⟩ := beep_follows_switch hl true stereo
  rcases hopens with ⟨⟨b, calls, notes⟩, hopened⟩ | ⟨_, _, _, _, hstart, hlarge, -, -⟩
  · obtain ⟨b₁, calls₁, hused₁, -, hlooping₁, -⟩ := hthen b calls notes hopened [.set true]
    obtain ⟨b₂, calls₂, hused₂, hon₂, hlooping₂, hquiet₂, honce₂, -⟩ :=
      hthen b calls notes hopened [.set true, .shutdown, .set true]
    obtain ⟨hsome, hloops⟩ := hlooping₁.mpr ⟨rfl, hstarts, by decide, rfl⟩
    refine ⟨hl, b, calls, notes, hopened, ⟨b₁, calls₁, hused₁, hloops⟩, b₂, calls₂, hused₂, hon₂,
      ?_, honce₂, hquiet₂ (.inl (by decide)) false⟩
    apply Bool.eq_false_iff.mpr
    intro hstuck
    exact absurd (hlooping₂.mp ⟨hsome, hstuck⟩).2.2.1 (by decide)
  · have hformat := Except.ok.inj (Prod.mk.inj (hgranted.symm.trans hstart)).2
    obtain ⟨hrate, hchannels⟩ := Prod.mk.inj hformat
    omega

end Whole

end Beeper

end SuperChip
