import VisualNovel.Proofs.Session.WakeUp

/-!
# Playback that stalls

A session whose timer is lost is stuck: time alone does not help it. It comes to that if and only if
playback takes a block that cuts itself off; a rehearsal of a game whose playback never does so does
not stall.

* `cutOff_runUntil`        a session that is cut off stays so as time goes on;
* `cutOff_perform`         an operation that takes such a block leaves a session that is cut off;
* `GoesWell`               a rehearsal that has not stalled so far;
* `lost_wake_ups`          when wake-ups are lost, and what becomes of rehearsals.
-/

set_option linter.unusedSectionVars false

namespace VisualNovel

open Session

variable {σ : Type} [Presentation σ] [Audio σ] {game : Game}

/-! ## Timers that are lost -/

theorem advanceWithin_of_busy {n : Nat} {s s' : Session σ} (busy : s.isBusy = true)
    (result : s.advanceWithin game n = some s') : s' = s := by
  cases n with
  | zero => cases result
  | succ n =>
    have rests : s.turn game = .rests s := by simp [turn, busy]
    rw [advanceWithin, rests] at result
    exact (Option.some.inj result).symm

theorem cutOff_advanceWithin {n place : Nat} {s s' : Session σ} (inStep : s.InStep)
    (taken : .takes place ∈ s.deedsWithin game n) (cutsOff : game.CutsOffAt place)
    (result : s.advanceWithin game n = some s') : s'.CutOff := by
  induction n generalizing s with
  | zero => cases result
  | succ n ih =>
    have here := fun m => cutOff_turn (s := s) game inStep m cutsOff
    have inStep' := inStep_turn game inStep
    simp only [advanceWithin] at result
    simp only [deedsWithin, List.mem_append] at taken
    cases e : s.turn game with
    | rests s₁ =>
      rw [e] at taken here result
      cases result
      exact here (taken.resolve_right List.not_mem_nil)
    | goesOn s₁ =>
      rw [e] at taken here result inStep'
      rcases taken with now | later
      · rw [advanceWithin_of_busy (busy_of_cutOff (here now)) result]
        exact here now
      · exact ih inStep' later result

theorem cutOff_settle {turn : Turn σ} {place : Nat} {s' : Session σ} (inStep : turn.session.InStep)
    (taken : .takes place ∈ turn.deeds game) (cutsOff : game.CutsOffAt place)
    (result : turn.settle game = some s') : s'.CutOff := by
  cases turn with
  | rests s => cases taken
  | goesOn s =>
    simp only [Turn.settle, advance] at result
    simp only [Turn.deeds] at taken
    split at taken
    · rename_i started
      rw [if_pos started] at result
      exact cutOff_advanceWithin inStep taken cutsOff result
    · cases taken

theorem cutOff_runUntil {limit fuel : Nat} {s s' : Session σ} (inStep : s.InStep) (h : s.CutOff)
    (result : s.runUntil game limit fuel = some s') : s'.CutOff := by
  induction fuel generalizing s with
  | zero => cases result
  | succ fuel ih =>
    cases due : s.timers.popDue? limit with
    | none =>
      rw [runUntil_of_none due] at result
      cases result
      exact h
    | some popped =>
      obtain ⟨t, timers⟩ := popped
      obtain ⟨first, -, -⟩ := Timers.popDue?_eq_some_iff.1 due
      have inStep' := inStep_popped inStep due
      have h' : ({ s with timers := timers } : Session σ).CutOff :=
        ⟨h.1, fun u m => h.2 u (by rw [first]; exact List.mem_cons_of_mem _ m)⟩
      rw [runUntil_of_some due, Option.bind_eq_some_iff] at result
      obtain ⟨s₁, acted, result⟩ := result
      unfold act at acted
      split at acted
      · rename_i live
        rcases inStep_live inStep due live with ⟨guard, -, -⟩ | ⟨-, kind⟩
        · exact absurd guard (h.2 t (by rw [first]; exact List.mem_cons_self))
        · obtain ⟨failed, e⟩ := fire_videoCheck game { s with timers := timers }
          rw [kind, e] at acted
          cases acted
          exact ih (s := { s with timers := timers, videoFailedAt := failed }) inStep' h' result
      · cases acted
        exact ih inStep' h' result

theorem cutOff_firings {limit fuel place : Nat} {s s' : Session σ} (inStep : s.InStep)
    (taken : .takes place ∈ (s.firings game limit fuel).flatMap (firingDeeds game))
    (cutsOff : game.CutsOffAt place) (result : s.runUntil game limit fuel = some s') : s'.CutOff := by
  induction fuel generalizing s with
  | zero => cases result
  | succ fuel ih =>
    simp only [runUntil] at result
    simp only [firings] at taken
    cases due : s.timers.popDue? limit with
    | none =>
      rw [due] at taken
      cases taken
    | some popped =>
      obtain ⟨t, timers⟩ := popped
      have reached : Reaches game s [] (.rests s) := .refl
      rw [due] at taken result
      dsimp only at taken result
      cases live : isLive { s with timers := timers } t with
      | true =>
        have fired := reached.fired due live
        simp only [live, if_true] at taken result
        obtain ⟨s₁, settled, result⟩ := Option.bind_eq_some_iff.1 result
        have inStep₁ : s₁.InStep := (fired.settle settled).inStep inStep
        rw [settled, List.flatMap_cons, List.mem_append] at taken
        rcases taken with now | later
        · rcases List.mem_cons.1 now with e | now
          · cases e
          · exact cutOff_runUntil inStep₁ (cutOff_settle (fired.inStep inStep) now cutsOff settled)
              result
        · exact ih inStep₁ later result
      | false =>
        simp only [live, Bool.false_eq_true, if_false] at taken result
        exact ih (inStep_popped inStep due) taken result

theorem cutOff_perform {o : Operation σ} {place : Nat} {s s' : Session σ} (inStep : s.InStep)
    (taken : .takes place ∈ o.deeds game s) (cutsOff : game.CutsOffAt place)
    (result : o.perform game s = some s') : s'.CutOff := by
  cases o with
  | start => exact cutOff_settle (inStep_opened game inStep) taken cutsOff result
  | activate =>
    simp only [Operation.perform, activate] at result
    simp only [Operation.deeds] at taken
    split at taken
    · rename_i started
      rw [if_pos started] at result
      exact cutOff_settle (inStep_pressed game inStep) taken cutsOff result
    · rename_i idle
      rw [if_neg idle] at result
      exact cutOff_settle (inStep_opened game inStep) taken cutsOff result
  | choose index => exact cutOff_settle (inStep_chosen game index inStep) taken cutsOff result
  | advance =>
    have taken : .takes place ∈ (Turn.goesOn s).deeds game := taken
    refine cutOff_settle ?_ taken cutsOff result
    exact inStep
  | runUntil limit fuel => exact cutOff_firings inStep taken cutsOff result
  | stage f => cases taken

theorem Continues.cutOff {s₀ s : Session σ} {deeds : List Deed} {place : Nat}
    (h : Continues game s₀ deeds s)
    (inStep : s₀.InStep) (taken : .takes place ∈ deeds) (cutsOff : game.CutsOffAt place) :
    ∃ deeds' s', deeds' <+: deeds ∧ Continues game s₀ deeds' s' ∧ s'.CutOff := by
  induction h with
  | refl => cases taken
  | @operation deeds s₁ s₂ o before result ih =>
    rcases List.mem_append.1 taken with earlier | now
    · obtain ⟨deeds', s', le, run, cutOff⟩ := ih earlier
      exact ⟨deeds', s', le.trans (List.prefix_append _ _), run, cutOff⟩
    · have inStep₁ : s₁.InStep := before.reaches.inStep inStep
      exact ⟨_, s₂, List.prefix_rfl, .operation o before result,
        cutOff_perform inStep₁ now cutsOff result⟩

/-! ## Rehearsals -/

/-- a run of the clock to a deadline is an operation of the host -/
theorem perform_of_runUntil {s s' : Session σ} {deadline fuel : Nat} (inTime : s.timers.InTime)
    (next : s.deadline? = some deadline) (result : s.runUntil game deadline fuel = some s') :
    ∃ limit, (Operation.runUntil limit fuel).perform game s = some s' := by
  have next : s.timers.pending.head?.map Timer.due = some deadline := next
  obtain ⟨t, first, due⟩ := Option.map_eq_some_iff.1 next
  have le : deadline ≤ endOfTime := due ▸ (inTime.due t (List.mem_of_mem_head? first)).2
  have limit : (UInt64.ofNat deadline).toNat = deadline :=
    UInt64.toNat_ofNat_of_lt' (Nat.lt_succ_of_le le)
  refine ⟨.ofNat deadline, ?_⟩
  rw [Operation.perform, limit]
  exact result

theorem continues_of_runUntil {s s' : Session σ} {deadline fuel : Nat} (inTime : s.timers.InTime)
    (next : s.deadline? = some deadline) (result : s.runUntil game deadline fuel = some s') :
    ∃ deeds, Continues game s deeds s' := by
  obtain ⟨limit, moved⟩ := perform_of_runUntil inTime next result
  exact ⟨_, .operation (.runUntil limit fuel) .refl moved⟩

theorem started_of_start {s s' : Session σ} (idle : s.started = false)
    (result : s.start game = some s') :
    s'.started := by
  obtain ⟨s₁, opened, started⟩ : ∃ s₁, s.opened game = .goesOn s₁ ∧ s₁.started := by
    unfold opened
    rw [if_neg (by simp [idle])]
    exact ⟨_, rfl, rfl⟩
  have reached : Reaches game s₁ [] (.goesOn s₁) := Reaches.refl.advanced started
  rw [start, opened] at result
  exact (reached.settle result).started started

/-- a session that is not finished and does not wait for the player has a timer pending -/
theorem deadline_of_wakes {s : Session σ} (started : s.started) (settled : s.Settled game)
    (inMode : s.InMode)
    (wakes : s.Wakes) (unfinished : s.isFinished game = false) (noMenu : s.isChoosing = false)
    (noLine : s.waitingForInput = false) : s.deadline? ≠ none := by
  have busy : s.isBusy = true := by
    rcases settled started with busy | waits | ⟨last, held⟩
    · exact busy
    · exact absurd (noLine.symm.trans waits) Bool.false_ne_true
    · rw [← Bool.not_eq_false]
      intro free
      simp [isFinished, started, last, free, noLine, held] at unfinished
  rw [isBusy_eq_of_inMode inMode] at busy
  obtain ⟨why, suspension⟩ := Option.isSome_iff_exists.1 busy
  have awaits : ∃ kind, s.awaits? = some kind := by
    cases why with
    | choice options => simp [isChoosing, suspension] at noMenu
    | _ => exact ⟨_, by rw [awaits?, suspension]; rfl⟩
  obtain ⟨kind, awaits⟩ := awaits
  obtain ⟨t, m, -, -⟩ := wakes kind awaits
  show s.timers.pending.head?.map Timer.due ≠ none
  cases first : s.timers.pending with
  | nil =>
    rw [first] at m
    cases m
  | cons u us => exact Option.some_ne_none _

namespace Rehearsal

structure GoesWell (game : Game) (r : Rehearsal) : Prop where
  run : ∃ deeds, Continues game (.ofStage rehearsalStage) deeds r.session
  started : r.session.started
  stalled : r.stalled = false

variable {choice fuel : Nat}

theorem GoesWell.later {r r' : Rehearsal} (h : r.GoesWell game) {deeds : List Deed}
    (later : Continues game r.session deeds r'.session) (stalled : r'.stalled = false) :
    r'.GoesWell game := by
  obtain ⟨deeds₀, run⟩ := h.run
  exact ⟨⟨deeds₀ ++ deeds, run.trans later⟩, later.reaches.started h.started, stalled⟩

theorem continues_of_answer {s s' : Session RecordingStage}
    (result : answer game choice s = some s') :
    ∃ deeds, Continues game s deeds s' := by
  unfold answer at result
  obtain ⟨s₁, first, result⟩ := Option.bind_eq_some_iff.1 result
  have once := Continues.refl.operation (.choose choice) first
  split at result
  · exact ⟨_, once.operation (.choose 0) result⟩
  · cases result
    exact ⟨_, once⟩

theorem goesWell_step {r r' : Rehearsal} (h : r.GoesWell game)
    (unfinished : r.session.isFinished game = false)
    (wakes : r.session.Wakes) (result : r.step game choice fuel = some r') : r'.GoesWell game := by
  obtain ⟨deeds, run⟩ := h.run
  have reached := run.reaches
  unfold step at result
  dsimp only at result
  split at result
  · obtain ⟨s', answered, e⟩ := Option.bind_eq_some_iff.1 result
    cases e
    obtain ⟨_, later⟩ := continues_of_answer answered
    exact h.later later h.stalled
  rename_i noMenu
  split at result
  · obtain ⟨s', activated, e⟩ := Option.bind_eq_some_iff.1 result
    cases e
    exact h.later (.operation .activate .refl activated) h.stalled
  rename_i noLine
  split at result
  · rename_i deadline next
    obtain ⟨s', ran, rfl⟩ := Option.map_eq_some_iff.1 result
    obtain ⟨_, later⟩ := continues_of_runUntil (reached.onTime (onTime_new _)).pending next ran
    exact h.later later h.stalled
  · rename_i nothing
    have settled : r.session.Settled game := run.settled nofun
    have inMode := reached.inMode (inStep_new _) (inMode_new _)
    exact absurd nothing (deadline_of_wakes h.started settled inMode wakes unfinished
      (Bool.eq_false_iff.2 noMenu) (Bool.eq_false_iff.2 noLine))

theorem goesWell_run {n : Nat} {r r' : Rehearsal} (h : r.GoesWell game)
    (stays : ∀ deeds (s : Session RecordingStage), Continues game (.ofStage rehearsalStage) deeds s →
      ∀ place, .takes place ∈ deeds → ¬ game.CutsOffAt place)
    (result : run game choice fuel n r = some r') : r'.GoesWell game := by
  induction n generalizing r with
  | zero =>
    cases result
    exact h
  | succ n ih =>
    simp only [run] at result
    split at result
    · cases result
      exact h
    · rename_i goesOn
      rw [Bool.not_eq_true, Bool.or_eq_false_iff] at goesOn
      obtain ⟨r₁, step, result⟩ := Option.bind_eq_some_iff.1 result
      obtain ⟨deeds, before⟩ := h.run
      have wakes := before.reaches.wakes (inStep_new _) (inMode_new _) (wakes_of_awaits_none rfl)
        (stays deeds _ before)
      exact ih (goesWell_step h goesOn.2 wakes step) result

end Rehearsal

theorem goesWell_of_rehearse {options : RehearsalOptions} {fuel : Nat} {report : Report}
    (stays : ∀ deeds (s : Session RecordingStage), Continues game (.ofStage rehearsalStage) deeds s →
      ∀ place, .takes place ∈ deeds → ¬ game.CutsOffAt place)
    (result : rehearse game options fuel = some report) : report.stalled = false := by
  unfold rehearse at result
  obtain ⟨s, started, result⟩ := Option.bind_eq_some_iff.1 result
  obtain ⟨r, run, result⟩ := Option.bind_eq_some_iff.1 result
  cases result
  have first : Continues game (.ofStage rehearsalStage) _ s := .operation .start .refl started
  exact (Rehearsal.goesWell_run ⟨⟨_, first⟩, started_of_start rfl started, rfl⟩ stays run).stalled

/-- **Wake-ups are lost to blocks that cut themselves off, and to nothing else.** As long as a
playback takes no such block, the timer that its session waits for is pending and fires as time goes
on. A playback that takes one comes through a session whose timer is not pending, and time does not
bring it back. A rehearsal of a game that takes none does not stall. -/
theorem lost_wake_ups (game : Game) :
    (∀ deeds (s : Session σ), Plays game deeds s →
      (∀ place, .takes place ∈ deeds → ¬ game.CutsOffAt place) →
      s.Wakes ∧ ∀ kind, s.awaits? = some kind →
        ∃ limit ≤ endOfTime, ∃ fuel, ∃ f ∈ s.firings game limit fuel, f.1.kind = kind ∧
          f.1.guard = .epoch s.epoch) ∧
    (∀ deeds (s : Session σ), Plays game deeds s → ∀ place, .takes place ∈ deeds →
      game.CutsOffAt place →
      ∃ deeds', ∃ s' : Session σ, deeds' <+: deeds ∧ Plays game deeds' s' ∧ ¬ s'.Wakes ∧
        ∀ limit fuel s'', s'.runUntil game limit fuel = some s'' → ¬ s''.Wakes) ∧
    ∀ options fuel report,
      (∀ deeds (s : Session RecordingStage), Continues game (.ofStage rehearsalStage) deeds s →
        ∀ place, .takes place ∈ deeds → ¬ game.CutsOffAt place) →
      rehearse game options fuel = some report → report.stalled = false := by
  refine ⟨fun deeds s plays stays => ?_, fun deeds s plays place taken cutsOff => ?_,
    fun options fuel report => ?_⟩
  · obtain ⟨stage, run⟩ := plays
    have reached := run.reaches
    have wakes : s.Wakes := reached.wakes (inStep_new stage) (inMode_new stage)
      (wakes_of_awaits_none rfl) stays
    have inTime : s.timers.InTime := (reached.onTime (onTime_new stage)).pending
    exact ⟨wakes, fun kind awaits =>
      fires_of_wakes (reached.inStep (inStep_new stage)) inTime wakes awaits⟩
  · obtain ⟨stage, run⟩ := plays
    obtain ⟨deeds', s', le, run', cutOff⟩ := run.cutOff (inStep_new stage) taken cutsOff
    have inStep : s'.InStep := run'.reaches.inStep (inStep_new stage)
    refine ⟨deeds', s', le, ⟨stage, run'⟩, not_wakes_of_cutOff cutOff, fun limit fuel s'' ran => ?_⟩
    exact not_wakes_of_cutOff (cutOff_runUntil inStep cutOff ran)
  · exact goesWell_of_rehearse

/-- a jump behind two lines of its block: the first one is typed, and a rehearsal does not stall -/
theorem lines_before_a_jump :
    let line : Cue := .dialogue ⟨"Hi", none, false, false⟩
    let game : Game :=
      { script := .ofEvents [.together [line, line, .jump "end"], .single (.label "end")] }
    (∃ deeds, ∃ s : Session RecordingStage, Plays game deeds s ∧ s.awaits? = some .typeTick ∧
      ∃ limit ≤ endOfTime, ∃ fuel, ∃ f ∈ s.firings game limit fuel, f.1.kind = .typeTick ∧
        f.1.guard = .epoch s.epoch) ∧
    ∃ fuel report, rehearse game {} fuel = some report ∧ report.stalled = false := by
  intro line game
  have whole (place : Nat) : ¬ game.CutsOffAt place := by
    rintro ⟨event, found, cutsOff⟩
    have stays : ∀ event ∈ game.script.events.toList, game.cutsOff event.cues = false := by
      decide +kernel
    rw [stays event (Array.mem_toList_iff.2 (Array.mem_of_getElem? found))] at cutsOff
    cases cutsOff
  obtain ⟨wakes, -, goesWell⟩ := lost_wake_ups (σ := RecordingStage) game
  constructor
  · have started : ∃ deeds, ∃ s : Session RecordingStage, Plays game deeds s ∧
        s.awaits? = some .typeTick :=
      ⟨_, _, ⟨rehearsalStage, .operation .start .refl rfl⟩, rfl⟩
    obtain ⟨deeds, s, plays, awaits⟩ := started
    obtain ⟨-, fires⟩ := wakes deeds s plays fun place _ => whole place
    exact ⟨deeds, s, plays, awaits, fires _ awaits⟩
  · have ends : (rehearse game {} 100).isSome = true := by decide +kernel
    obtain ⟨report, result⟩ := Option.isSome_iff_exists.1 ends
    exact ⟨100, report, result, goesWell {} 100 report (fun _ _ _ place _ => whole place) result⟩

/-- a jump beside a line: the line is never shown to its end, and a rehearsal stalls -/
theorem line_lost_to_a_jump :
    let line : Cue := .dialogue ⟨"Hi", none, false, false⟩
    let game : Game := { script := .ofEvents [.together [line, .jump "end"], .single (.label "end")] }
    (∃ deeds, ∃ s : Session RecordingStage, Plays game deeds s ∧ ¬ s.Wakes) ∧
      ∃ fuel report, rehearse game {} fuel = some report ∧ report.stalled = true := by
  intro line game
  constructor
  · have started : ∃ deeds, ∃ s : Session RecordingStage, Plays game deeds s ∧
        s.awaits?.isSome ∧ ∀ t ∈ s.timers.pending, t.guard ≠ .epoch s.epoch := by
      refine ⟨_, _, ⟨rehearsalStage, .operation .start .refl rfl⟩, ?_⟩
      decide +kernel
    obtain ⟨deeds, s, plays, cutOff⟩ := started
    exact ⟨deeds, s, plays, not_wakes_of_cutOff cutOff⟩
  · have stalls : (rehearse game {} 10).any Report.stalled = true := by decide +kernel
    obtain ⟨report, result, stalled⟩ := (Option.any_eq_true _ _).1 stalls
    exact ⟨10, report, result, stalled⟩

end VisualNovel
