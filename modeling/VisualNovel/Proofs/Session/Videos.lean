import VisualNovel.Proofs.Session.Idle
import VisualNovel.Proofs.Session.Recall
import VisualNovel.Session.Rehearsal

/-!
# Videos that never start

A video without an asset fails at once, and its time is simulated from that moment on, as far as the
session is concerned. The stage is not told of it. It goes on to report what became of the video before,
and a wait for the missing video ends, too, when the stage reports that one at its end.

* `Session.Failed`         the last video has failed at a moment;
* `Session.Step.failed`    it stays so until another video is played;
* `Session.AwaitsVideo`    an entry of the history during which a wait for the video goes on;
* `Session.Step.waits`     a wait goes on, or a poll ends it;
* `Session.Path.waits`     the same for a whole way;
* `waits_for_a_missing_video`   what this means for a playback that is looked back on.
-/

set_option linter.unusedSectionVars false

namespace VisualNovel

open Session Presentation

variable {σ : Type} [Presentation σ] [Audio σ] {game : Game}

/-- the video that the deed plays, if it does -/
def Deed.video? : Deed → Option String
  | .does (.video name) => some name
  | _ => none

def Deed.videoWait? : Deed → Option Float
  | .does (.waitVideo target) => some target
  | _ => none

theorem Deed.video?_eq_some {deed : Deed} {name : String} (h : deed.video? = some name) :
    deed = .does (.video name) := by
  unfold Deed.video? at h
  split at h
  · cases h
    rfl
  · cases h

theorem Deed.videoWait?_eq_some {deed : Deed} {target : Float} (h : deed.videoWait? = some target) :
    deed = .does (.waitVideo target) := by
  unfold Deed.videoWait? at h
  split at h
  · cases h
    rfl
  · cases h

namespace Session

/-- the seconds from a moment on -/
def secondsSince (moment : Nat) (s : Session σ) : Float := (s.now - moment).toUInt64.toFloat / 1000

/-! ## The moment of failure -/

def Failed (moment : Nat) (s : Session σ) : Prop :=
  s.videoFailedAt = some moment ∧ s.videoGeneration ≠ 0

section
variable {s s' : Session σ} {moment : Nat} {more : List (Deed × Session σ)}

theorem failed_of_missing {name : String} (missing : game.assets.contains name = false)
    (s : Session σ) : (s.execute game (.video name)).2.Failed s.now := by
  have none : game.assets.get? name = none := by simpa [Table.contains] using missing
  have e : (s.execute game (.video name)).2 =
      { s with videoGeneration := s.videoGeneration + 1, videoFailedAt := some s.now } := by
    simp [execute, playVideo, none, now]
  rw [e]
  exact ⟨rfl, Nat.succ_ne_zero _⟩

theorem Failed.videoClock (h : s.Failed moment) : s.videoClock = s.secondsSince moment := by
  rw [Session.videoClock, h.1, secondsSince]

/-- of the cues, only those that play a video say anything about it -/
theorem Failed.execute {cue : Cue} (h : s.Failed moment) (other : (Deed.does cue).video? = none) :
    (s.execute game cue).2.Failed moment := by
  have outcome := execute_outcome game cue s
  generalize (s.execute game cue).1 = flow at outcome
  generalize e : (s.execute game cue).2 = s' at outcome ⊢
  cases outcome with
  | quiet _ d =>
    obtain ⟨_, _, _, _, rfl⟩ := d
    exact h
  | video | videoStarted => cases other
  | waitVideo seconds =>
    rw [← e]
    simp only [Session.execute, waitForVideo, h.2, if_false]
    exact h
  | jumped | noMenu | menu | wait | line | card | noCard | sequence => exact h

theorem Failed.fire {kind : TimerKind} (h : s.Failed moment) :
    (s.fire game kind).session.Failed moment := by
  have fired := fire_fired game kind s
  generalize e : s.fire game kind = turn at fired ⊢
  cases fired with
  | checked =>
    -- the check finds the video failed already
    rw [← e]
    show s.checkVideo.Failed moment
    rw [checkVideo_eq, h.1, Option.some_or]
    exact ⟨rfl, h.2⟩
  | lineDone _ scene completion => cases completion <;> exact h
  | _ => exact h

theorem Step.failed (step : s.Step game more s') (others : ∀ entry ∈ more, entry.1.video? = none)
    (h : s.Failed moment) : s'.Failed moment := by
  rcases step.does_or_fires with ⟨cue, rfl, rfl⟩ | ⟨timer, timers, -, rfl⟩ | stirred
  · exact h.execute (others _ (List.mem_singleton_self _))
  · have left : Failed moment { s with timers := timers } := h
    exact left.fire
  · cases stirred with
    | moved | chosen => exact h
    | skipped scene line completion => cases completion <;> exact h

theorem Path.failed {s₀ : Session σ} {entries : List (Deed × Session σ)}
    (h : Path game s₀ entries s) (others : ∀ entry ∈ entries, entry.1.video? = none)
    (h₀ : s₀.Failed moment) : s.Failed moment :=
  h.keeps (P := Failed moment) (fun step others kept => step.failed others kept) others h₀

/-! ## Waiting -/

variable {target : Float}

/-- the entry finds playback waiting for the video to come to `target`. If it is a poll, then neither
that much time has passed since the video failed, nor does the stage report a video at its end -/
def AwaitsVideo (moment : Nat) (target : Float) (entry : Deed × Session σ) : Prop :=
  entry.2.suspension = some (.videoWait target) ∧
    ∀ timer, entry.1 = .fires timer → timer.kind = .videoPoll →
      ¬ entry.2.secondsSince moment ≥ target ∧ videoEnded entry.2.stage = false

structure Releases (moment : Nat) (target : Float) (timer : Timer) (s : Session σ) : Prop where
  poll : timer.kind = .videoPoll
  waits : s.suspension = some (.videoWait target)
  due : s.secondsSince moment ≥ target ∨ videoEnded s.stage = true

theorem fire_of_waits (game : Game) {timer : Timer} (h : s.Failed moment)
    (waits : s.suspension = some (.videoWait target)) (poll : timer.kind = .videoPoll) :
    AwaitsVideo moment target (.fires timer, s) ∧
        (s.fire game timer.kind).session.suspension = some (.videoWait target) ∨
      Releases moment target timer s := by
  cases reached : (decide (s.videoClock ≥ target) || videoEnded s.stage) with
  | true =>
    rw [Bool.or_eq_true, decide_eq_true_iff, h.videoClock] at reached
    exact .inr ⟨poll, waits, reached⟩
  | false =>
    have stays : s.pollVideo game = .rests (s.schedule game.config.timing.videoPoll .videoPoll) := by
      simp only [pollVideo, waits, reached]
      rfl
    rw [Bool.or_eq_false_iff, decide_eq_false_iff_not, h.videoClock] at reached
    refine .inl ⟨⟨waits, fun _ _ _ => reached⟩, ?_⟩
    rw [poll, fire, stays]
    exact waits

theorem Step.waits (step : s.Step game more s') (inStep : s.InStep) (inMode : s.InMode)
    (h : s.Failed moment) (waits : s.suspension = some (.videoWait target)) :
    (∀ entry ∈ more, AwaitsVideo moment target entry) ∧ s'.suspension = some (.videoWait target) ∨
      ∃ timer s₁, more = [(.fires timer, s₁)] ∧ Releases moment target timer s₁ := by
  have busy : s.isBusy = true := by simp [isBusy, waits]
  have none : ∀ entry ∈ ([] : List (Deed × Session σ)), AwaitsVideo moment target entry :=
    fun _ m => absurd m List.not_mem_nil
  cases step with
  | takes free | unholds free => exact absurd (free.symm.trans busy) Bool.false_ne_true
  | holds | drops | clock | stage => exact .inl ⟨none, waits⟩
  | does cue may =>
    have quiet := may busy
    refine .inl ⟨fun entry m => ?_, ?_⟩
    · rw [List.mem_singleton.1 m]
      exact ⟨waits, fun _ fires => Deed.noConfusion fires⟩
    · have outcome := execute_outcome game cue s
      generalize (s.execute game cue).1 = flow at outcome
      generalize (s.execute game cue).2 = s' at outcome ⊢
      cases outcome with
      | quiet _ d =>
        obtain ⟨_, _, _, _, rfl⟩ := d
        exact waits
      | video | videoStarted | jumped | noMenu => exact waits
      | menu | wait | waitVideo | line | card | noCard | sequence => cases quiet
  | @fires _ _ timer timers due live =>
    rcases inStep_live inStep due live with ⟨-, awaits, -⟩ | ⟨-, check⟩
    · have poll : timer.kind = .videoPoll := by
        rw [awaits?, waits] at awaits
        exact (Option.some.inj awaits).symm
      have failed : Failed moment ({ s with timers := timers } : Session σ) := h
      rcases fire_of_waits game failed waits poll with ⟨awaits, still⟩ | releases
      · refine .inl ⟨fun entry m => ?_, still⟩
        rw [List.mem_singleton.1 m]
        exact awaits
      · exact .inr ⟨timer, _, rfl, releases⟩
    · obtain ⟨failed, e⟩ := fire_videoCheck game { s with timers := timers }
      refine .inl ⟨fun entry m => ?_, ?_⟩
      · rw [List.mem_singleton.1 m]
        refine ⟨waits, fun other same poll => ?_⟩
        cases same
        rw [check] at poll
        cases poll
      · rw [check, e]
        exact waits
  | opens =>
    obtain ⟨scene, started, e, -⟩ := opened_session game s
    rw [e]
    exact .inl ⟨none, waits⟩
  | presses =>
    have pressed := pressed_pressed game s
    generalize s.pressed game = turn at pressed ⊢
    cases pressed with
    | idle | goesOn => exact .inl ⟨none, waits⟩
    | skipped revealing =>
      -- no line is being revealed during the wait
      have typing := inMode.reveal.1 (by rw [revealing]; rfl)
      cases typing.symm.trans waits
  | chooses index =>
    have chosen := chosen_chosen game index s
    generalize s.chosen game index = turn at chosen ⊢
    cases chosen with
    | idle => exact .inl ⟨none, waits⟩
    | taken menu | jumped menu => cases menu.symm.trans waits

theorem Path.waits {s₀ : Session σ} {entries : List (Deed × Session σ)} (h : Path game s₀ entries s)
    (inStep : s₀.InStep) (inMode : s₀.InMode) (h₀ : s₀.Failed moment)
    (waits : s₀.suspension = some (.videoWait target))
    (others : ∀ entry ∈ entries, entry.1.video? = none) :
    (∀ entry ∈ entries, AwaitsVideo moment target entry) ∧ s.suspension = some (.videoWait target) ∨
      ∃ waiting timer s₁ rest, entries = waiting ++ (.fires timer, s₁) :: rest ∧
        (∀ entry ∈ waiting, AwaitsVideo moment target entry) ∧ Releases moment target timer s₁ := by
  induction h with
  | refl => exact .inl ⟨fun _ m => absurd m List.not_mem_nil, waits⟩
  | @step entries more s s' way step ih =>
    have earlier : ∀ entry ∈ entries, entry.1.video? = none :=
      fun entry m => others entry (List.mem_append_left _ m)
    rcases ih earlier with ⟨waiting, waits⟩ | ⟨waiting, timer, s₁, rest, rfl, all, releases⟩
    · obtain ⟨inStep, inMode⟩ := way.inMode inStep inMode
      rcases step.waits inStep inMode (way.failed earlier h₀) waits with
        ⟨now, still⟩ | ⟨timer, s₁, rfl, releases⟩
      · exact .inl ⟨List.forall_mem_append.2 ⟨waiting, now⟩, still⟩
      · exact .inr ⟨entries, timer, s₁, [], rfl, waiting, releases⟩
    · exact .inr ⟨waiting, timer, s₁, rest ++ more, by simp, all, releases⟩

end

end Session

/-- **A wait for a video that is missing goes by simulated time, or by the end of another video.** Once
a video has been named that has no asset, and as long as no other video is played, it counts as failed
at that moment. A wait that follows goes on until a poll at which its target has been reached by the
time since then, or at which the stage reports a video at its end; each poll before finds neither. -/
theorem waits_for_a_missing_video (game : Game) {stage : σ} {name : String} {target : Float}
    {before between later : List (Deed × Session σ)} {s₀ s₁ : Session σ} {turn : Turn σ}
    (missing : game.assets.contains name = false)
    (h : Recalls game (.ofStage stage)
      (before ++ (.does (.video name), s₀) ::
        (between ++ (.does (.waitVideo target), s₁) :: later)) turn)
    (last : ∀ entry ∈ between ++ later, entry.1.video? = none) :
    turn.session.videoFailedAt = some s₀.now ∧
    ((∀ entry ∈ later, AwaitsVideo s₀.now target entry) ∧
        turn.session.suspension = some (.videoWait target) ∨
      ∃ waiting timer s₂ rest, later = waiting ++ (.fires timer, s₂) :: rest ∧
        (∀ entry ∈ waiting, AwaitsVideo s₀.now target entry) ∧
        timer.kind = .videoPoll ∧ s₂.suspension = some (.videoWait target) ∧
        (s₂.secondsSince s₀.now ≥ target ∨ videoEnded s₂.stage = true)) := by
  obtain ⟨way, mayPlay, afterVideo⟩ := h.path.at_does
  obtain ⟨toWait, mayWait, afterWait⟩ := afterVideo.at_does
  have between_quiet : ∀ entry ∈ between, entry.1.video? = none :=
    fun entry m => last entry (List.mem_append_left _ m)
  have later_quiet : ∀ entry ∈ later, entry.1.video? = none :=
    fun entry m => last entry (List.mem_append_right _ m)
  obtain ⟨inStep₀, inMode₀⟩ := way.inMode (inStep_new stage) (inMode_new stage)
  obtain ⟨inStep₁, inMode₁⟩ := toWait.inMode (inStep_execute game _ inStep₀)
    (inMode_execute game _ mayPlay inMode₀)
  have failed₁ : s₁.Failed s₀.now := toWait.failed between_quiet (failed_of_missing missing s₀)
  have failed₂ : (s₁.execute game (.waitVideo target)).2.Failed s₀.now := failed₁.execute rfl
  have waits : (s₁.execute game (.waitVideo target)).2.suspension = some (.videoWait target) := rfl
  refine ⟨(afterWait.failed later_quiet failed₂).1, ?_⟩
  rcases afterWait.waits (inStep_execute game _ inStep₁) (inMode_execute game _ mayWait inMode₁)
    failed₂ waits later_quiet with still | ⟨waiting, timer, s₂, rest, rfl, all, releases⟩
  · exact .inl still
  · exact .inr ⟨waiting, timer, s₂, rest, rfl, all, releases.poll, releases.waits, releases.due⟩

/-- where no video comes to its end, the wait for a missing one ends after its time -/
theorem released_by_simulated_time :
    let game : Game :=
      { script := .ofEvents [.single (.video "gone"), .single (.waitVideo 1), .single (.sound "ding")]
        assets := .ofList [("ding", "ding.wav")] }
    ∃ before s₀ between target s₁ waiting timer s₂ rest, ∃ s : Session RecordingStage,
      Recalls game (.ofStage {}) (before ++ (.does (.video "gone"), s₀) ::
        (between ++ (.does (.waitVideo target), s₁) :: (waiting ++ (.fires timer, s₂) :: rest)))
        (.rests s) ∧
      s.stage.sound.sounds = ["ding"] ∧ timer.kind = .videoPoll ∧ s₂.secondsSince s₀.now ≥ target := by
  intro game
  let os : List (Operation RecordingStage) := [.start, .runUntil 2000 100]
  let entries := (Session.ofStage {}).recalled game os
  have heard : ((Session.ofStage {}).performAll game os).any (fun s : Session RecordingStage =>
      s.stage.sound.sounds == ["ding"] && s.suspension.isNone) = true := by
    decide +kernel
  have video : entries[1]?.any (fun entry => entry.1.video? == some "gone") = true := by decide +kernel
  have waits : (entries.drop 2)[1]?.any (fun entry => entry.1.videoWait?.isSome) = true := by
    decide +kernel
  have quiet : ((entries.drop 2).take 1 ++ (entries.drop 2).drop 2).all
      (fun entry => entry.1.video?.isNone && !videoEnded entry.2.stage) = true := by
    decide +kernel
  obtain ⟨s, result, shown⟩ := (Option.any_eq_true _ _).1 heard
  obtain ⟨⟨deed₀, s₀⟩, ⟨deed₁, s₁⟩, is₀, is₁, recalls⟩ :=
    Recalls.exists_split_of_any result video waits
  obtain ⟨target, is₁⟩ := Option.isSome_iff_exists.1 is₁
  obtain rfl := Deed.video?_eq_some (beq_iff_eq.1 is₀)
  obtain rfl := Deed.videoWait?_eq_some is₁
  rw [Bool.and_eq_true, beq_iff_eq, Option.isNone_iff_eq_none] at shown
  simp only [List.all_eq_true, Bool.and_eq_true, Bool.not_eq_true', Option.isNone_iff_eq_none] at quiet
  obtain ⟨-, ⟨-, still⟩ | ⟨waiting, timer, s₂, rest, split, -, poll, -, due⟩⟩ :=
    waits_for_a_missing_video game (by decide +kernel) recalls fun entry m => (quiet entry m).1
  · exact absurd (shown.2.symm.trans still) (Option.some_ne_none _).symm
  · have among : (.fires timer, s₂) ∈ (entries.drop 2).drop 2 := by
      rw [split]
      exact List.mem_append_right _ List.mem_cons_self
    have going := (quiet _ (List.mem_append_right _ among)).2
    rw [split] at recalls
    refine ⟨_, s₀, _, target, s₁, waiting, timer, s₂, rest, s, recalls, shown.1, poll, ?_⟩
    exact due.resolve_right fun ended => Bool.false_ne_true (going.symm.trans ended)

/-- a video that has ended ends the wait for a missing one, too, long before its time -/
theorem released_by_another_video :
    let game : Game :=
      { script := .ofEvents [.single (.video "a"), .single (.waitVideo 1), .single (.video "gone"),
          .single (.waitVideo 5), .single (.sound "ding")]
        assets := .ofList [("a", "a.mp4"), ("ding", "ding.wav")] }
    ∃ before s₀ between target s₁ later, ∃ s : Session RecordingStage,
      Recalls game (.ofStage {}) (before ++ (.does (.video "gone"), s₀) ::
        (between ++ (.does (.waitVideo target), s₁) :: later)) (.rests s) ∧
      game.assets.contains "gone" = false ∧
      (∀ entry ∈ between ++ later, entry.1.video? = none) ∧
      s.stage.sound.sounds = ["ding"] ∧ ¬ s.secondsSince s₀.now ≥ target := by
  intro game
  let os : List (Operation RecordingStage) :=
    [.start, .stage fun p => { p with screen := { p.screen with videoEnded := true } },
      .runUntil 200 10]
  let entries := (Session.ofStage {}).recalled game os
  have heard : ((Session.ofStage {}).performAll game os).any (fun s : Session RecordingStage =>
      s.stage.sound.sounds == ["ding"] && s.now == 200) = true := by
    decide +kernel
  have video : entries[6]?.any (fun entry => entry.1.video? == some "gone" && entry.2.now == 100) =
      true := by
    decide +kernel
  have waits : (entries.drop 7)[1]?.any (fun entry => entry.1.videoWait?.any
      fun target => !decide ((200 - 100 : Nat).toUInt64.toFloat / 1000 ≥ target)) = true := by
    decide +kernel
  have quiet : ((entries.drop 7).take 1 ++ (entries.drop 7).drop 2).all
      (fun entry => entry.1.video?.isNone) = true := by
    decide +kernel
  obtain ⟨s, result, shown⟩ := (Option.any_eq_true _ _).1 heard
  obtain ⟨⟨deed₀, s₀⟩, ⟨deed₁, s₁⟩, is₀, is₁, recalls⟩ :=
    Recalls.exists_split_of_any result video waits
  obtain ⟨target, is₁, short⟩ := (Option.any_eq_true _ _).1 is₁
  rw [Bool.and_eq_true, beq_iff_eq, beq_iff_eq] at shown is₀
  obtain rfl := Deed.video?_eq_some is₀.1
  obtain rfl := Deed.videoWait?_eq_some is₁
  refine ⟨_, s₀, _, target, s₁, _, s, recalls, by decide +kernel, fun entry m => ?_, shown.1, ?_⟩
  · exact Option.isNone_iff_eq_none.1 (List.all_eq_true.1 quiet entry m)
  · rw [secondsSince, shown.2, is₀.2]
    simpa using short

end VisualNovel
