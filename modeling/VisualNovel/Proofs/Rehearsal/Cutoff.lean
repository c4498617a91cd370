import Mathlib.Data.List.Basic
import VisualNovel.Proofs.Session.Stall
import VisualNovel.Proofs.Stage.Tuneless

/-!
# Rehearsals that are cut off

A rehearsal takes a number of steps at most. With fewer steps it is the same rehearsal, cut off earlier:
its report says less, and the same about what it has come to. What the report says goes together: it
counts the lines and the menus that it has a snapshot of, one step at most for each.

* `Session.Onward`            the clock has not gone back, and the calls for sound are still there;
* `onward_perform`            no operation of the host but one on the stage itself breaks this;
* `Rehearsal.Onward`          a rehearsal has gone on: its counts, its trace and its session;
* `Rehearsal.Sound`           the counts of a rehearsal under way go together;
* `Rehearsal.run_add`         so many steps, and then some more;
* `Report.Consistent`, `Report.Begins`   a report by itself, and beside that of a longer rehearsal;
* `rehearsal_cut_off`         reports are consistent, and fewer steps give the beginning of a report.
-/

set_option linter.unusedSectionVars false

namespace VisualNovel

open Session

/-! ## The clock and the calls for sound -/

/-- the calls for sound on the one stage are the first ones on the other -/
def RecordingStage.Prolongs (p q : RecordingStage) : Prop :=
  p.sound.calls.toList <+: q.sound.calls.toList

namespace RecordingStage

theorem prolongs_log {p : RecordingStage} {sound : SoundLog} {call : SoundCall}
    (calls : sound.calls = p.sound.calls.push call) : p.Prolongs { p with sound } := by
  show p.sound.calls.toList <+: sound.calls.toList
  rw [calls, Array.toList_push]
  exact List.prefix_append _ _

theorem prolongs_tuneless : Tuneless Prolongs where
  refl _ := List.prefix_rfl
  trans first second := first.trans second
  directed d other p := by
    cases d with
    | stopMusic => cases other
    | suspendAudio | resumeAudio => exact prolongs_log rfl
    | _ => exact List.prefix_rfl
  added _ _ := List.prefix_rfl
  replaced _ _ _ := List.prefix_rfl
  removed _ _ := List.prefix_rfl
  cleared _ := List.prefix_rfl
  begun _ _ := List.prefix_rfl
  pushed _ _ := List.prefix_rfl
  filled _ _ := List.prefix_rfl
  videoPlayed _ _ := List.prefix_rfl
  soundPlayed key locator volume p := by
    by_cases fails : p.sound.failing.contains key = true
    · simp only [Audio.playSound, fails, if_true]
      exact List.prefix_rfl
    · simp only [Audio.playSound, fails]
      exact prolongs_log rfl

theorem prolongs_playMusic (p : RecordingStage) (key locator : String) (volume : Float32) :
    p.Prolongs (Audio.playMusic p key locator volume).2 := by
  by_cases fails : p.sound.failing.contains key = true
  · simp only [Audio.playMusic, fails, if_true]
    exact List.prefix_rfl
  · simp only [Audio.playMusic, fails]
    exact prolongs_log rfl

end RecordingStage

section
variable {game : Game} {s : Session RecordingStage}

theorem prolongs_stopMusic (s : Session RecordingStage) : s.stage.Prolongs s.stopMusic.stage := by
  unfold Session.stopMusic
  dsimp only
  split
  · exact RecordingStage.prolongs_log rfl
  · exact List.prefix_rfl

theorem prolongs_music (action : MusicAction) (name : Option String) (s : Session RecordingStage) :
    s.stage.Prolongs (s.music game action name).stage := by
  unfold Session.music
  split
  · unfold Session.playMusic
    dsimp only
    split
    · split
      · exact RecordingStage.prolongs_log rfl
      · exact List.prefix_rfl
    · split
      · rename_i locator _
        exact (prolongs_stopMusic s).trans (RecordingStage.prolongs_playMusic _ _ locator _)
      · exact prolongs_stopMusic s
  · exact List.prefix_rfl
  · exact RecordingStage.prolongs_log rfl
  · exact RecordingStage.prolongs_log rfl
  · exact prolongs_stopMusic s

theorem prolongs_execute (cue : Cue) (s : Session RecordingStage) :
    s.stage.Prolongs (s.execute game cue).2.stage := by
  cases cue with
  | music action name => exact prolongs_music action name s
  | _ => exact (SameMusic.execute RecordingStage.prolongs_tuneless rfl s).stage

theorem prolongs_turn (s : Session RecordingStage) :
    s.stage.Prolongs (s.turn game).session.stage :=
  turn_keeps game (P := fun s' => s.stage.Prolongs s'.stage)
    (fun s' cue _ h => h.trans (prolongs_execute cue s')) (fun _ _ h => h) (fun _ _ h => h) s
    List.prefix_rfl

end

def Timers.Since (n : Nat) (q : Timers) : Prop := q.InTime ∧ n ≤ q.now

theorem Timers.Since.schedule {n : Nat} {q : Timers} (h : q.Since n) (delay : Nat)
    (kind : TimerKind) (guard : Guard) : (q.schedule delay kind guard).Since n :=
  ⟨h.1.schedule delay kind guard, h.2⟩

theorem Timers.Since.popDue? {n limit : Nat} {q q' : Timers} {t : Timer} (h : q.Since n)
    (due : q.popDue? limit = some (t, q')) : q'.Since n := by
  obtain ⟨inTime, le, now⟩ := h.1.popDue? due
  have := h.2
  exact ⟨inTime, by omega⟩

/-- since `s₀` the clock has not gone back, and no call for sound is lost -/
structure Session.Onward (s₀ s : Session RecordingStage) : Prop where
  timers : s.timers.Since s₀.now
  heard : s₀.stage.Prolongs s.stage

namespace Session.Onward

variable {game : Game} {s₀ s s' : Session RecordingStage}

theorem refl (inTime : s.timers.InTime) : s.Onward s := ⟨⟨inTime, Nat.le_refl _⟩, List.prefix_rfl⟩

theorem trans (h : s₀.Onward s) (h' : s.Onward s') : s₀.Onward s' :=
  ⟨⟨h'.timers.1, Nat.le_trans h.timers.2 h'.timers.2⟩, h.heard.trans h'.heard⟩

end Session.Onward

def Operation.LeavesStage {σ : Type} : Operation σ → Prop
  | .stage _ => False
  | _ => True

theorem onward_keeps (game : Game) (s₀ : Session RecordingStage) :
    Keeps game Operation.LeavesStage fun _ turn => s₀.Onward turn.session where
  turn _ h := ⟨timers_turn game (fun _ delay kind guard h => h.schedule delay kind guard) h.timers,
    h.heard.trans (prolongs_turn _)⟩
  idle _ h := h
  fired {_ s _ timer timers} due _ h := by
    refine ⟨timers_fire game (s := { s with timers := timers })
      (fun _ delay kind guard h => h.schedule delay kind guard) timer.kind (h.timers.popDue? due), ?_⟩
    exact h.heard.trans
      (SameMusic.fire RecordingStage.prolongs_tuneless timer.kind { s with timers := timers }).stage
  dropped due _ h := ⟨h.timers.popDue? due, h.heard⟩
  clock le none h := ⟨⟨h.timers.1.setNow le none, Nat.le_trans h.timers.2 (Nat.le_max_left _ _)⟩, h.heard⟩
  opened {_ s} h := by
    obtain ⟨_, _, e, -⟩ := opened_session game s
    refine ⟨?_, h.heard.trans (SameMusic.opened RecordingStage.prolongs_tuneless s).stage⟩
    rw [e]
    exact h.timers
  pressed _ _ h :=
    ⟨timers_pressed game (fun _ delay kind guard h => h.schedule delay kind guard) h.timers,
      h.heard.trans (SameMusic.pressed RecordingStage.prolongs_tuneless _).stage⟩
  chosen index h := by
    refine ⟨?_, h.heard.trans (SameMusic.chosen RecordingStage.prolongs_tuneless index _).stage⟩
    rw [timers_chosen]
    exact h.timers
  advanced _ _ h := h
  stage allowed _ := absurd allowed id

theorem onward_perform {game : Game} {s s' : Session RecordingStage} {o : Operation RecordingStage}
    (allowed : o.LeavesStage) (inTime : s.timers.InTime) (result : o.perform game s = some s') :
    s.Onward s' :=
  (ContinuesWithin.operation o allowed .refl result).keeps (onward_keeps game s) (.refl inTime)

/-! ## Steps of a rehearsal -/

namespace Rehearsal

def ended (game : Game) (r : Rehearsal) : Bool := r.stalled || r.session.isFinished game

/-- a rehearsal has gone on from `r` to `r'` -/
structure Onward (r r' : Rehearsal) : Prop where
  session : r.session.Onward r'.session
  steps : r.steps ≤ r'.steps
  lines : r.lines ≤ r'.lines
  choices : r.choices ≤ r'.choices
  trace : r.trace.toList <+: r'.trace.toList

theorem Onward.refl {r : Rehearsal} (inTime : r.session.timers.InTime) : r.Onward r :=
  ⟨.refl inTime, Nat.le_refl _, Nat.le_refl _, Nat.le_refl _, List.prefix_rfl⟩

theorem Onward.trans {r r' r'' : Rehearsal} (h : r.Onward r') (h' : r'.Onward r'') : r.Onward r'' :=
  ⟨h.session.trans h'.session, Nat.le_trans h.steps h'.steps, Nat.le_trans h.lines h'.lines,
    Nat.le_trans h.choices h'.choices, h.trace.trans h'.trace⟩

structure Sound (game : Game) (r : Rehearsal) : Prop where
  records : r.trace.size = r.lines + r.choices
  recorded : r.lines + r.choices ≤ r.steps
  unfinished : r.stalled = true → r.session.isFinished game = false
  inTime : r.session.timers.InTime

variable {game : Game} {choice fuel : Nat} {r r' : Rehearsal}

theorem onward_answer {s s' : Session RecordingStage} (inTime : s.timers.InTime)
    (result : answer game choice s = some s') : s.Onward s' := by
  unfold answer at result
  obtain ⟨s₁, first, result⟩ := Option.bind_eq_some_iff.1 result
  have once : s.Onward s₁ := onward_perform (o := .choose choice) trivial inTime first
  split at result
  · exact once.trans (onward_perform (o := .choose 0) trivial once.timers.1 result)
  · cases result
    exact once

/-- a step that is not taken at the end is counted, goes on, and keeps the counts together -/
theorem sound_step (h : r.Sound game) (goesOn : r.ended game = false)
    (result : r.step game choice fuel = some r') :
    r'.Sound game ∧ r.Onward r' ∧ r'.steps = r.steps + 1 := by
  obtain ⟨running, unfinished⟩ := Bool.or_eq_false_iff.1 goesOn
  have records := h.records
  have recorded := h.recorded
  unfold step at result
  dsimp only at result
  split at result
  · obtain ⟨s', answered, e⟩ := Option.bind_eq_some_iff.1 result
    cases e
    have session := onward_answer h.inTime answered
    refine ⟨⟨?_, ?_, fun stalled => ?_, session.timers.1⟩,
      ⟨session, Nat.le_succ _, Nat.le_refl _, Nat.le_succ _, ?_⟩, rfl⟩
    · simp only [Array.size_push]
      omega
    · dsimp only
      omega
    · exact absurd (running.symm.trans stalled) nofun
    · simp only [Array.toList_push]
      exact List.prefix_append _ _
  split at result
  · obtain ⟨s', activated, e⟩ := Option.bind_eq_some_iff.1 result
    cases e
    have session : r.session.Onward s' :=
      onward_perform (o := .activate) trivial h.inTime activated
    refine ⟨⟨?_, ?_, fun stalled => ?_, session.timers.1⟩,
      ⟨session, Nat.le_succ _, Nat.le_succ _, Nat.le_refl _, ?_⟩, rfl⟩
    · simp only [Array.size_push]
      omega
    · dsimp only
      omega
    · exact absurd (running.symm.trans stalled) nofun
    · simp only [Array.toList_push]
      exact List.prefix_append _ _
  split at result
  · rename_i deadline next
    obtain ⟨s', ran, rfl⟩ := Option.map_eq_some_iff.1 result
    obtain ⟨limit, moved⟩ := perform_of_runUntil h.inTime next ran
    have session : r.session.Onward s' := onward_perform (o := .runUntil limit fuel) trivial h.inTime moved
    exact ⟨⟨records, Nat.le_succ_of_le recorded,
        fun stalled => absurd (running.symm.trans stalled) nofun, session.timers.1⟩,
      ⟨session, Nat.le_succ _, Nat.le_refl _, Nat.le_refl _, List.prefix_rfl⟩, rfl⟩
  · cases result
    exact ⟨⟨records, Nat.le_succ_of_le recorded, fun _ => unfinished, h.inTime⟩,
      ⟨.refl h.inTime, Nat.le_succ _, Nat.le_refl _, Nat.le_refl _, List.prefix_rfl⟩, rfl⟩

theorem step_mono {fuel' : Nat} (le : fuel ≤ fuel') (result : r.step game choice fuel = some r') :
    r.step game choice fuel' = some r' := by
  unfold step at result ⊢
  dsimp only at result ⊢
  split at result
  · rename_i choosing
    rwa [if_pos choosing]
  rename_i noMenu
  rw [if_neg noMenu]
  split at result
  · rename_i waits
    rwa [if_pos waits]
  rename_i noLine
  rw [if_neg noLine]
  cases next : r.session.deadline? with
  | none =>
    rw [next] at result
    exact result
  | some deadline =>
    rw [next] at result
    obtain ⟨s', ran, rfl⟩ := Option.map_eq_some_iff.1 result
    exact Option.map_eq_some_iff.2 ⟨s', runUntil_mono ran le, rfl⟩

/-! ## Runs of steps -/

theorem run_succ (n : Nat) (r : Rehearsal) :
    run game choice fuel (n + 1) r =
      if r.ended game then some r
      else (r.step game choice fuel).bind (run game choice fuel n) := rfl

theorem run_of_ended (ended : r.ended game = true) (n : Nat) : run game choice fuel n r = some r := by
  cases n with
  | zero => rfl
  | succ n => rw [run_succ, if_pos ended]

theorem run_add (m n : Nat) (r : Rehearsal) :
    run game choice fuel (m + n) r = (run game choice fuel m r).bind (run game choice fuel n) := by
  induction m generalizing r with
  | zero =>
    rw [Nat.zero_add]
    rfl
  | succ m ih =>
    rw [Nat.add_right_comm, run_succ, run_succ]
    split
    · rename_i ended
      rw [Option.bind_some, run_of_ended ended]
    · rw [Option.bind_assoc]
      exact Option.bind_congr fun r' _ => ih r'

theorem run_mono {n fuel' : Nat} (le : fuel ≤ fuel') (result : run game choice fuel n r = some r') :
    run game choice fuel' n r = some r' := by
  induction n generalizing r with
  | zero => exact result
  | succ n ih =>
    rw [run_succ] at result ⊢
    split at result
    · rename_i ended
      rw [if_pos ended]
      exact result
    · rename_i goesOn
      obtain ⟨r₁, stepped, result⟩ := Option.bind_eq_some_iff.1 result
      rw [if_neg goesOn, step_mono le stepped, Option.bind_some]
      exact ih result

/-- a run goes on, keeps the counts together, and takes all of its steps unless it comes to an end -/
theorem sound_run {n : Nat} (h : r.Sound game) (result : run game choice fuel n r = some r') :
    r'.Sound game ∧ r.Onward r' ∧ r'.steps ≤ r.steps + n ∧
      (r'.ended game = false → r'.steps = r.steps + n) := by
  induction n generalizing r with
  | zero =>
    cases result
    exact ⟨h, .refl h.inTime, Nat.le_refl _, fun _ => rfl⟩
  | succ n ih =>
    rw [run_succ] at result
    split at result
    · rename_i ended
      cases result
      exact ⟨h, .refl h.inTime, Nat.le_add_right _ _, fun goesOn => absurd (goesOn.symm.trans ended) nofun⟩
    · rename_i goesOn
      obtain ⟨r₁, stepped, result⟩ := Option.bind_eq_some_iff.1 result
      obtain ⟨sound, onward, one⟩ := sound_step h (Bool.eq_false_iff.2 goesOn) stepped
      obtain ⟨sound', onward', le, all⟩ := ih sound result
      refine ⟨sound', onward.trans onward', by omega, fun goesOn' => ?_⟩
      have := all goesOn'
      omega

end Rehearsal

/-! ## Reports -/

/-- what a report says goes together -/
structure Report.Consistent (maxSteps : Nat) (report : Report) : Prop where
  notBoth : ¬ (report.finished = true ∧ report.stalled = true)
  cut : report.finished = false → report.stalled = false → report.steps = maxSteps
  within : report.steps ≤ maxSteps
  records : report.trace.length = report.lines + report.choices
  recorded : report.lines + report.choices ≤ report.steps

/-- the one report is the beginning of the other -/
structure Report.Begins (short long : Report) : Prop where
  trace : short.trace <+: long.trace
  steps : short.steps ≤ long.steps
  lines : short.lines ≤ long.lines
  choices : short.choices ≤ long.choices
  sounds : short.sounds ≤ long.sounds
  musicStarts : short.musicStarts ≤ long.musicStarts
  elapsed : short.elapsed ≤ long.elapsed

section
variable {game : Game} {choice fuel n : Nat} {r r' : Rehearsal}

theorem Rehearsal.Onward.begins (h : r.Onward r') : (r.report game).Begins (r'.report game) where
  trace := h.trace
  steps := h.steps
  lines := h.lines
  choices := h.choices
  sounds := (List.IsPrefix.filterMap _ h.session.heard).length_le
  musicStarts := h.session.heard.sublist.countP_le
  elapsed := h.session.timers.2

theorem Rehearsal.Sound.consistent (h : r.Sound game) (within : r.steps ≤ n)
    (cut : r.ended game = false → r.steps = n) : (r.report game).Consistent n where
  notBoth both := absurd ((h.unfinished both.2).symm.trans both.1) nofun
  cut unfinished running := cut (Bool.or_eq_false_iff.2 ⟨running, unfinished⟩)
  within := within
  records := (Array.length_toList ..).trans h.records
  recorded := h.recorded

/-- a rehearsal whose report says so has come to its end -/
theorem Rehearsal.ended_of_report
    (ends : (r.report game).finished = true ∨ (r.report game).stalled = true) :
    r.ended game = true := by
  rw [Rehearsal.ended, Bool.or_eq_true]
  exact ends.symm

theorem rehearse_eq_some_iff {report : Report} :
    rehearse game { choice, maxSteps := n } fuel = some report ↔
      ∃ s, (Session.ofStage rehearsalStage).start game = some s ∧
        ∃ r, Rehearsal.run game choice fuel n { session := s } = some r ∧ r.report game = report := by
  unfold rehearse
  simp only [Option.bind_eq_bind, Option.bind_eq_some_iff, Option.pure_def, Option.some.injEq]

theorem sound_of_start {s : Session RecordingStage}
    (started : (Session.ofStage rehearsalStage).start game = some s) :
    ({ session := s } : Rehearsal).Sound game :=
  ⟨rfl, Nat.le_refl _, nofun,
    (onward_perform (o := .start) trivial (onTime_new rehearsalStage).pending started).timers.1⟩

theorem rehearse_mono {fuel' : Nat} {report : Report} (le : fuel ≤ fuel')
    (result : rehearse game { choice, maxSteps := n } fuel = some report) :
    rehearse game { choice, maxSteps := n } fuel' = some report := by
  obtain ⟨s, started, r, run, rfl⟩ := rehearse_eq_some_iff.1 result
  exact rehearse_eq_some_iff.2 ⟨s, started, r, Rehearsal.run_mono le run, rfl⟩

theorem rehearse_unique {fuel' : Nat} {report report' : Report}
    (result : rehearse game { choice, maxSteps := n } fuel = some report)
    (result' : rehearse game { choice, maxSteps := n } fuel' = some report') : report = report' :=
  Option.some.inj ((rehearse_mono (Nat.le_max_left fuel fuel') result).symm.trans
    (rehearse_mono (Nat.le_max_right fuel fuel') result'))

end

/-- **A rehearsal is cut off cleanly.** Whatever the game and the option to be taken, a report of at most
`n` steps says nothing that does not go together: it is not both finished and stalled, and has taken all
`n` steps if it is neither; there is a snapshot of each line and each menu, and a step for each snapshot.
With at most `m` steps, `m` no more than `n`, there is a report, too, one whatever the fuel; it is as
consistent, its trace is the beginning of the longer one, its counts and its clock are not larger, and
if it has finished or stalled, the two reports are the same. A report that has finished or stalled is
that of all longer rehearsals. -/
theorem rehearsal_cut_off (game : Game) (choice : Nat) {m n : Nat} (le : m ≤ n) :
    (∀ fuel long, rehearse game { choice, maxSteps := n } fuel = some long →
      long.Consistent n ∧
      ∃ short, rehearse game { choice, maxSteps := m } fuel = some short ∧
        short.Consistent m ∧ short.Begins long ∧
        (short.finished = true ∨ short.stalled = true → short = long) ∧
        ∀ fuel' other, rehearse game { choice, maxSteps := m } fuel' = some other → other = short) ∧
    ∀ fuel short, rehearse game { choice, maxSteps := m } fuel = some short →
      short.finished = true ∨ short.stalled = true →
      rehearse game { choice, maxSteps := n } fuel = some short := by
  obtain ⟨k, rfl⟩ := Nat.exists_eq_add_of_le le
  refine ⟨fun fuel long result => ?_, fun fuel short result ends => ?_⟩
  · obtain ⟨s, started, r, run, rfl⟩ := rehearse_eq_some_iff.1 result
    have new := sound_of_start started
    obtain ⟨sound, -, within, cut⟩ := Rehearsal.sound_run new run
    rw [Rehearsal.run_add] at run
    obtain ⟨r₁, run₁, run₂⟩ := Option.bind_eq_some_iff.1 run
    obtain ⟨sound₁, -, within₁, cut₁⟩ := Rehearsal.sound_run new run₁
    have short := rehearse_eq_some_iff.2 ⟨s, started, r₁, run₁, rfl⟩
    simp only [Nat.zero_add] at within cut within₁ cut₁
    refine ⟨sound.consistent within cut, _, short, sound₁.consistent within₁ cut₁,
      (Rehearsal.sound_run sound₁ run₂).2.1.begins, fun ends => ?_,
      fun fuel' other result' => rehearse_unique result' short⟩
    rw [Rehearsal.run_of_ended (Rehearsal.ended_of_report ends)] at run₂
    rw [Option.some.inj run₂]
  · obtain ⟨s, started, r, run, rfl⟩ := rehearse_eq_some_iff.1 result
    refine rehearse_eq_some_iff.2 ⟨s, started, r, ?_, rfl⟩
    rw [Rehearsal.run_add, run, Option.bind_some,
      Rehearsal.run_of_ended (Rehearsal.ended_of_report ends)]

/-- a line that comes again and again, cut off after three steps and after seven; and a line that is
shown once, to whose end four steps are enough -/
theorem rehearsal_cut_off_loop :
    let line : Cue := .dialogue ⟨"", none, false, false⟩
    let loop : Game :=
      { script := .ofEvents [.single (.label "top"), .single line, .single (.jump "top")] }
    let once : Game := { script := .ofEvents [.single line] }
    (∃ short long, rehearse loop { maxSteps := 3 } 10 = some short ∧
      rehearse loop { maxSteps := 7 } 10 = some long ∧ short.Begins long ∧
      long.Consistent 7 ∧ short.trace.length < long.trace.length) ∧
    ∃ report, rehearse once { maxSteps := 4 } 10 = some report ∧ report.finished = true ∧
      rehearse once { maxSteps := 1000 } 10 = some report := by
  intro line loop once
  have long : (rehearse loop { maxSteps := 7 } 10).any (fun long =>
      (rehearse loop { maxSteps := 3 } 10).any fun short =>
        short.trace.length < long.trace.length) = true := by
    decide +kernel
  have finished : (rehearse once { maxSteps := 4 } 10).any Report.finished = true := by
    decide +kernel
  obtain ⟨long, result, more⟩ := (Option.any_eq_true _ _).1 long
  obtain ⟨short, result', more⟩ := (Option.any_eq_true _ _).1 more
  obtain ⟨report, ends, finished⟩ := (Option.any_eq_true _ _).1 finished
  have cut := (rehearsal_cut_off loop 0 (show 3 ≤ 7 by decide)).1 10 long result
  obtain ⟨consistent, _, short_eq, -, begins, -, unique⟩ := cut
  obtain rfl := unique 10 short result'
  refine ⟨⟨short, long, result', result, begins, consistent, of_decide_eq_true more⟩,
    report, ends, finished, ?_⟩
  exact (rehearsal_cut_off once 0 (show 4 ≤ 1000 by decide)).2 10 report ends (.inl finished)

end VisualNovel
