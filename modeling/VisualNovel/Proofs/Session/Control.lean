import VisualNovel.Proofs.Session.Lockstep

/-!
# What playback goes by

Pictures, characters, sounds and music have no say in what comes next, nor when: of all that a stage
answers, only the state of a video has. Where no video starts, its time is simulated, and so two
sessions with the same script and configuration go the same way, on whatever stages they are and
whatever their assets.

* `RefusesVideos`       stages on which no video starts;
* `Session.Simulated`   whenever a session waits for a video, its time is simulated;
* `Reaches.simulated`   playback keeps it so;
* `bare_execute`, `bare_fire`, `bare_pressed`   one step of two sessions with different assets;
* `lockstep_of_bare`, `bare_follow`             all moves.
-/

set_option linter.unusedSectionVars false

namespace VisualNovel

open Session Presentation Audio

class RefusesVideos (σ : Type) [Presentation σ] : Prop where
  refuses (stage : σ) (locator : String) : (playVideo stage locator).1.isOk = false
  ended (stage : σ) : videoEnded stage = false

structure Session.Simulated {σ : Type} (s : Session σ) : Prop where
  failed : s.videoGeneration ≠ 0 → s.videoFailedAt.isSome
  waited : ∀ target, s.suspension = some (.videoWait target) → s.videoFailedAt.isSome
  unchecked : ∀ t ∈ s.timers.pending, t.kind ≠ .videoCheck

def Session.Turn.bare {σ : Type} : Turn σ → Turn Unit
  | .rests s => .rests s.bare
  | .goesOn s => .goesOn s.bare

theorem Session.Turn.rel_of_bare_eq {σ τ : Type} {turn : Turn σ} {turn' : Turn τ}
    (h : turn.bare = turn'.bare) : Turn.Rel (fun s t => s.bare = t.bare) turn turn' := by
  cases turn <;> cases turn'
  · exact .rests (Turn.rests.inj h)
  · cases h
  · cases h
  · exact .goesOn (Turn.goesOn.inj h)

variable {σ τ : Type} [Presentation σ] [Audio σ] [Presentation τ] [Audio τ]

/-! ## Videos that do not start -/

section
variable {s : Session σ} (game : Game)

theorem bare_playVideo [RefusesVideos σ] (name : String) :
    (s.playVideo game name).bare =
      { s.bare with videoGeneration := s.videoGeneration + 1, videoFailedAt := some s.now } := by
  unfold Session.playVideo
  dsimp only
  split
  · rfl
  · rename_i locator _
    have refuses := RefusesVideos.refuses (setLayer s.scene.stage .video) locator
    split
    · rename_i started
      rw [started] at refuses
      cases refuses
    · rfl

namespace Session.Simulated

theorem new (stage : σ) : (Session.ofStage stage).Simulated := ⟨nofun, nofun, nofun⟩

theorem of_bare_eq {t : Session τ} (e : s.bare = t.bare) (h : s.Simulated) : t.Simulated := by
  have bare : s.bare.Simulated := ⟨h.failed, h.waited, h.unchecked⟩
  rw [e] at bare
  exact ⟨bare.failed, bare.waited, bare.unchecked⟩

theorem resume (h : s.Simulated) : s.resume.Simulated := ⟨h.failed, nofun, h.unchecked⟩

theorem suspend (h : s.Simulated) (why : Suspension)
    (since : ∀ target, why = .videoWait target → s.videoFailedAt.isSome) :
    (s.suspend why).Simulated :=
  ⟨h.failed, fun target e => since target (Option.some.inj e), h.unchecked⟩

theorem schedule (h : s.Simulated) (kind : TimerKind) (ne : kind ≠ .videoCheck) (delay : Nat) :
    (s.schedule delay kind).Simulated := by
  refine ⟨h.failed, h.waited, fun t m => ?_⟩
  rcases List.mem_cons.1 ((Timers.enter_perm _ _).mem_iff.1 m) with rfl | m
  · exact ne
  · exact h.unchecked t m

theorem playVideo [RefusesVideos σ] (h : s.Simulated) (name : String) :
    (s.playVideo game name).Simulated := by
  have failed : Session.Simulated
      { s with videoGeneration := s.videoGeneration + 1, videoFailedAt := some s.now } :=
    ⟨fun _ => rfl, fun _ _ => rfl, h.unchecked⟩
  exact failed.of_bare_eq (bare_playVideo game name).symm

theorem waitForVideo (h : s.Simulated) (seconds : Float) :
    (s.waitForVideo game seconds).Simulated := by
  unfold Session.waitForVideo
  dsimp only
  split
  · have since : Session.Simulated { s with videoFailedAt := some s.now } :=
      ⟨fun _ => rfl, fun _ _ => rfl, h.unchecked⟩
    exact (since.suspend (.videoWait seconds) fun _ _ => rfl).schedule .videoPoll nofun _
  · rename_i begun
    exact (h.suspend (.videoWait seconds) fun _ _ => h.failed begun).schedule .videoPoll nofun _

theorem completeLine (h : s.Simulated) (completion : Completion) :
    (s.completeLine game completion).Simulated := by
  have done : Session.Simulated { s with typing := false } := ⟨h.failed, h.waited, h.unchecked⟩
  cases completion with
  | autoAdvance => exact (done.suspend .autoAdvance nofun).schedule .advance nofun _
  | waitForInput => exact ⟨h.failed, nofun, h.unchecked⟩

theorem execute [RefusesVideos σ] (cue : Cue) (h : s.Simulated) :
    (s.execute game cue).2.Simulated := by
  have outcome := execute_outcome game cue s
  generalize (s.execute game cue).1 = flow at outcome
  generalize executed : (s.execute game cue).2 = s' at outcome ⊢
  cases outcome with
  | quiet _ d =>
    obtain ⟨_, _, _, _, rfl⟩ := d
    exact ⟨h.failed, h.waited, h.unchecked⟩
  | video name | videoStarted name =>
    rw [← executed]
    exact h.playVideo game name
  | jumped => exact ⟨h.failed, h.waited, h.unchecked⟩
  | noMenu => exact h
  | menu => exact ⟨h.failed, nofun, h.unchecked⟩
  | wait => exact (h.suspend .waiting nofun).schedule .advance nofun _
  | waitVideo seconds =>
    rw [← executed]
    exact h.waitForVideo game seconds
  | line line scene delay =>
    have ready : Session.Simulated { s with
        scene := scene, waitingForInput := false, typing := true
        reveal := .revealing line 0 } := ⟨h.failed, h.waited, h.unchecked⟩
    exact (ready.suspend .typing nofun).schedule .typeTick nofun _
  | card line lines scene card delay =>
    have ready : Session.Simulated { s with
        scene := scene, waitingForInput := false, typing := true, introMode := true
        cardShown := true, card := some card } := ⟨h.failed, h.waited, h.unchecked⟩
    exact (ready.suspend .introCard nofun).schedule .cardTick nofun _
  | noCard => exact ⟨h.failed, nofun, h.unchecked⟩
  | sequence frames fps keepLast scene delay =>
    have ready : Session.Simulated { s with
        scene := scene
        flipbook := some ⟨frames, delay, keepLast⟩ } := ⟨h.failed, h.waited, h.unchecked⟩
    exact (ready.suspend .sequence nofun).schedule .frame nofun _

theorem turn [RefusesVideos σ] (h : s.Simulated) : (s.turn game).session.Simulated :=
  turn_keeps game (P := Session.Simulated) (fun _ cue _ h => h.execute game cue)
    (fun _ _ h => ⟨h.failed, h.waited, h.unchecked⟩)
    (fun _ _ h => ⟨h.failed, h.waited, h.unchecked⟩) s h

theorem checkVideo (h : s.Simulated) : s.checkVideo.Simulated := by
  unfold Session.checkVideo
  split
  · exact ⟨fun _ => rfl, fun _ _ => rfl, h.unchecked⟩
  · exact h

theorem fire (kind : TimerKind) (h : s.Simulated) : (s.fire game kind).session.Simulated := by
  have fired := fire_fired game kind s
  generalize turned : s.fire game kind = turn at fired ⊢
  cases fired with
  | advance => exact h.resume
  | noLine | noCard | noFrames | noVideo => exact h
  | @typed line shown _ scene delay =>
    have further : Session.Simulated { s with
        scene := scene, reveal := .revealing line (shown + 1) } :=
      ⟨h.failed, h.waited, h.unchecked⟩
    exact further.schedule .typeTick nofun _
  | @lineDone line _ _ scene completion =>
    have done : Session.Simulated { s with scene := scene, reveal := .done line } :=
      ⟨h.failed, h.waited, h.unchecked⟩
    exact done.completeLine game completion
  | carded _ scene card delay =>
    have further : Session.Simulated { s with scene := scene, card := some card } :=
      ⟨h.failed, h.waited, h.unchecked⟩
    exact further.schedule .cardTick nofun _
  | cardDone | framesDone => exact ⟨h.failed, nofun, h.unchecked⟩
  | frame _ scene flipbook delay =>
    have further : Session.Simulated { s with scene := scene, flipbook := some flipbook } :=
      ⟨h.failed, h.waited, h.unchecked⟩
    exact further.schedule .frame nofun _
  | polled => exact h.schedule .videoPoll nofun _
  | videoReached => exact h.resume
  | checked =>
    rw [← turned]
    exact h.checkVideo

theorem pressed (h : s.Simulated) : (s.pressed game).session.Simulated := by
  have pressed := pressed_pressed game s
  generalize s.pressed game = turn at pressed ⊢
  cases pressed with
  | idle => exact h
  | goesOn => exact ⟨h.failed, h.waited, h.unchecked⟩
  | @skipped line _ _ scene completion =>
    have done : Session.Simulated { s with scene := scene, reveal := .done line } :=
      ⟨h.failed, h.waited, h.unchecked⟩
    exact done.completeLine game completion

theorem chosen (index : Nat) (h : s.Simulated) : (s.chosen game index).session.Simulated := by
  have chosen := chosen_chosen game index s
  generalize s.chosen game index = turn at chosen ⊢
  cases chosen with
  | idle => exact h
  | taken | jumped => exact ⟨h.failed, nofun, h.unchecked⟩

theorem popped {limit : Nat} {t : Timer} {timers : Timers} (h : s.Simulated)
    (due : s.timers.popDue? limit = some (t, timers)) :
    Session.Simulated { s with timers := timers } := by
  obtain ⟨e, -, -⟩ := Timers.popDue?_eq_some_iff.1 due
  refine ⟨h.failed, h.waited, fun u m => h.unchecked u ?_⟩
  rw [e]
  exact List.mem_cons_of_mem _ m

end Session.Simulated

end

theorem Reaches.simulated [RefusesVideos σ] {game : Game} {s₀ : Session σ} {deeds : List Deed}
    {turn : Turn σ} (h : Reaches game s₀ deeds turn) (h₀ : s₀.Simulated) :
    turn.session.Simulated := by
  induction h with
  | refl => exact h₀
  | stage _ _ ih => exact ⟨ih.failed, ih.waited, ih.unchecked⟩
  | @opened _ s _ ih =>
    obtain ⟨scene, started, e, -⟩ := opened_session game s
    rw [e]
    exact ⟨ih.failed, ih.waited, ih.unchecked⟩
  | pressed _ _ ih => exact ih.pressed game
  | chosen index _ ih => exact ih.chosen game index
  | advanced _ _ ih => exact ih
  | turn _ _ ih => exact ih.turn game
  | idle _ _ ih => exact ih
  | fired due _ _ ih => exact (Session.Simulated.popped ih due).fire game _
  | dropped due _ _ ih => exact Session.Simulated.popped ih due
  | clock _ _ _ ih => exact ⟨ih.failed, ih.waited, ih.unchecked⟩

/-! ## Two sessions with different assets -/

section
variable (game : Game) (assets : AssetTable) {s : Session σ} {t : Session τ}

theorem bare_suspend (h : s.bare = t.bare) (why : Suspension) :
    (s.suspend why).bare = (t.suspend why).bare :=
  congrArg (Session.suspend why) h

theorem bare_resume (h : s.bare = t.bare) : s.resume.bare = t.resume.bare :=
  congrArg Session.resume h

theorem bare_schedule (h : s.bare = t.bare) (delay : Nat) (kind : TimerKind) :
    (s.schedule delay kind).bare = (t.schedule delay kind).bare :=
  congrArg (Session.schedule delay kind) h

theorem bare_showLine (h : s.bare = t.bare) (line : Line) :
    (s.showLine game line).bare = (t.showLine { game with assets := assets } line).bare := by
  obtain ⟨scene, music, heard, rfl⟩ := exists_of_bare_eq h
  rfl

theorem bare_stepCard (h : s.bare = t.bare) :
    (s.stepCard game).bare = (t.stepCard { game with assets := assets }).bare := by
  obtain ⟨scene, music, heard, rfl⟩ := exists_of_bare_eq h
  unfold Session.stepCard
  dsimp only
  split
  · rfl
  · split
    · refine bare_schedule ?_ _ _
      rw [bare_playSound, bare_playSound]
      split <;> rfl
    · refine bare_schedule ?_ _ _
      split <;> rfl
    · rfl

theorem bare_beginCard (h : s.bare = t.bare) (lines : List String) :
    (s.beginCard game lines).bare = (t.beginCard { game with assets := assets } lines).bare := by
  refine bare_stepCard game assets ?_
  obtain ⟨scene, music, heard, rfl⟩ := exists_of_bare_eq h
  rfl

theorem bare_waitForVideo (h : s.bare = t.bare) (seconds : Float) :
    (s.waitForVideo game seconds).bare =
      (t.waitForVideo { game with assets := assets } seconds).bare := by
  obtain ⟨scene, music, heard, rfl⟩ := exists_of_bare_eq h
  unfold Session.waitForVideo
  dsimp only
  split <;> rfl

theorem bare_jump (h : s.bare = t.bare) (target : String) :
    (s.jump game target).bare = (t.jump { game with assets := assets } target).bare := by
  obtain ⟨scene, music, heard, rfl⟩ := exists_of_bare_eq h
  unfold Session.jump
  dsimp only
  split <;> rfl

theorem bare_completeLine (h : s.bare = t.bare) (completion : Completion) :
    (s.completeLine game completion).bare =
      (t.completeLine { game with assets := assets } completion).bare := by
  obtain ⟨scene, music, heard, rfl⟩ := exists_of_bare_eq h
  cases completion <;> rfl

variable [RefusesVideos σ] [RefusesVideos τ]

/-- **A cue leaves two sessions that go by the same so, and holds both or none, whatever their
assets.** -/
theorem bare_execute (h : s.bare = t.bare) (cue : Cue) :
    (s.execute game cue).1 = (t.execute { game with assets := assets } cue).1 ∧
      (s.execute game cue).2.bare = (t.execute { game with assets := assets } cue).2.bare := by
  obtain ⟨scene, music, heard, e⟩ := exists_of_bare_eq h
  cases cue with
  | background name =>
    refine ⟨rfl, ?_⟩
    simp only [Session.execute, bare_showBackground, h]
  | view name =>
    refine ⟨rfl, ?_⟩
    simp only [Session.execute, bare_showView, h]
  | music action name =>
    refine ⟨rfl, ?_⟩
    simp only [Session.execute, bare_music, h]
  | sound name =>
    refine ⟨rfl, ?_⟩
    simp only [Session.execute, bare_playSound, h]
  | character name action =>
    refine ⟨rfl, ?_⟩
    simp only [Session.execute, bare_moveCharacter, h]
  | video name =>
    refine ⟨rfl, ?_⟩
    simp only [Session.execute, bare_playVideo, h]
    rw [e]
    rfl
  | dialogue line => exact ⟨rfl, bare_showLine game assets h line⟩
  | wait seconds => exact ⟨rfl, bare_schedule (bare_suspend h .waiting) _ _⟩
  | waitVideo seconds => exact ⟨rfl, bare_waitForVideo game assets h seconds⟩
  | introCard lines => exact ⟨rfl, bare_beginCard game assets h lines⟩
  | jump target => exact ⟨rfl, bare_jump game assets h target⟩
  | choice options =>
    subst e
    cases options <;> exact ⟨rfl, rfl⟩
  | introStart | introEnd | sequence =>
    subst e
    exact ⟨rfl, rfl⟩
  | label | unknown => exact ⟨rfl, h⟩

/-! ## Timers and the player -/

theorem complete_eq (game : Game) (line : Line) (a : Scene σ) :
    ∃ a', LineReveal.complete game line a =
      (some (if line.autoAdvance then .autoAdvance else .waitForInput), .done line, a') := by
  unfold LineReveal.complete LineReveal.finish
  dsimp only
  split
  · exact ⟨_, rfl⟩
  · exact ⟨_, rfl⟩

theorem tick_congr (reveal : LineReveal) (a : Scene σ) (b : Scene τ) :
    ∃ completed shown a' b', LineReveal.tick game reveal a = (completed, shown, a') ∧
      LineReveal.tick { game with assets := assets } reveal b = (completed, shown, b') := by
  unfold LineReveal.tick
  split
  · rename_i line n
    split
    · obtain ⟨a', here⟩ := complete_eq game line a
      obtain ⟨b', there⟩ := complete_eq { game with assets := assets } line b
      exact ⟨_, _, a', b', here, there⟩
    · exact ⟨_, _, _, _, rfl, rfl⟩
  · exact ⟨_, _, _, _, rfl, rfl⟩

theorem skip_congr (reveal : LineReveal) (a : Scene σ) (b : Scene τ) :
    ∃ completed shown a' b', LineReveal.skip game reveal a = (completed, shown, a') ∧
      LineReveal.skip { game with assets := assets } reveal b = (completed, shown, b') := by
  unfold LineReveal.skip
  split
  · rename_i line n
    obtain ⟨a', here⟩ := complete_eq game line (a.onStage (setText · line.text))
    obtain ⟨b', there⟩ := complete_eq { game with assets := assets } line
      (b.onStage (setText · line.text))
    exact ⟨_, _, a', b', here, there⟩
  · exact ⟨_, _, _, _, rfl, rfl⟩

theorem bare_revealed (h : s.bare = t.bare) (reveal : LineReveal) (a : Scene σ) (b : Scene τ) :
    bare { s with reveal := reveal, scene := a } = bare { t with reveal := reveal, scene := b } :=
  congrArg (fun s : Session Unit => { s with reveal := reveal }) h

theorem bare_typeTick (h : s.bare = t.bare) :
    (s.typeTick game).bare = (t.typeTick { game with assets := assets }).bare := by
  have reveal : t.reveal = s.reveal := congrArg Session.reveal h.symm
  unfold Session.typeTick
  rw [reveal]
  split
  · obtain ⟨completed, shown, a, b, here, there⟩ :=
      tick_congr game assets s.reveal s.scene t.scene
    rw [here, there]
    have further := bare_revealed h shown a b
    cases completed with
    | none => exact bare_schedule further _ _
    | some completion => exact bare_completeLine game assets further completion
  · exact h

theorem bare_nextFrame (h : s.bare = t.bare) :
    (s.nextFrame game).bare = (t.nextFrame { game with assets := assets }).bare := by
  obtain ⟨scene, music, heard, rfl⟩ := exists_of_bare_eq h
  unfold Session.nextFrame
  dsimp only
  split
  · rfl
  · rename_i frame _ _ _ _
    cases game.assets.get? frame <;> cases assets.get? frame <;> rfl
  · rename_i keepLast _
    cases keepLast <;> rfl

theorem bare_pollVideo (h : s.bare = t.bare) (simulated : s.Simulated) :
    (s.pollVideo game).bare = (t.pollVideo { game with assets := assets }).bare := by
  have held : t.suspension = s.suspension := congrArg Session.suspension h.symm
  unfold Session.pollVideo
  rw [held]
  split
  · rename_i target held
    obtain ⟨failed, since⟩ := Option.isSome_iff_exists.1 (simulated.waited target held)
    have since' : t.videoFailedAt = some failed :=
      (congrArg Session.videoFailedAt h.symm).trans since
    have now : t.now = s.now := congrArg Session.now h.symm
    have clock : t.videoClock = s.videoClock := by simp only [videoClock, since, since', now]
    rw [clock, RefusesVideos.ended, RefusesVideos.ended]
    split
    · exact congrArg Turn.goesOn (bare_resume h)
    · exact congrArg Turn.rests (bare_schedule h _ _)
  · exact congrArg Turn.rests h

theorem bare_fire (h : s.bare = t.bare) (simulated : s.Simulated) {kind : TimerKind}
    (ne : kind ≠ .videoCheck) :
    (s.fire game kind).bare = (t.fire { game with assets := assets } kind).bare := by
  cases kind with
  | advance => exact congrArg Turn.goesOn (bare_resume h)
  | typeTick => exact congrArg Turn.rests (bare_typeTick game assets h)
  | cardTick => exact congrArg Turn.rests (bare_stepCard game assets h)
  | frame => exact bare_nextFrame game assets h
  | videoPoll => exact bare_pollVideo game assets h simulated
  | videoCheck => exact absurd rfl ne

theorem bare_opened (h : s.bare = t.bare) :
    (s.opened game).bare = (t.opened { game with assets := assets }).bare := by
  obtain ⟨scene, music, heard, rfl⟩ := exists_of_bare_eq h
  unfold Session.opened
  dsimp only
  split <;> rfl

theorem bare_pressed (h : s.bare = t.bare) :
    (s.pressed game).bare = (t.pressed { game with assets := assets }).bare := by
  obtain ⟨scene, music, heard, rfl⟩ := exists_of_bare_eq h
  have choosing : isChoosing { s with
      scene := scene, currentMusic := music, musicActive := heard } = s.isChoosing := rfl
  unfold Session.pressed
  rw [choosing]
  dsimp only
  split
  · rfl
  split
  · split <;> rfl
  split
  · obtain ⟨completed, shown, a, b, here, there⟩ :=
      skip_congr game assets s.reveal s.scene scene
    rw [here, there]
    have further := bare_revealed h shown a b
    cases completed with
    | none => exact congrArg Turn.rests further
    | some completion =>
      exact congrArg Turn.rests (bare_completeLine game assets further completion)
  · rfl

theorem bare_chosen (h : s.bare = t.bare) (index : Nat) :
    (s.chosen game index).bare = (t.chosen { game with assets := assets } index).bare := by
  have held : t.suspension = s.suspension := congrArg Session.suspension h.symm
  have closed : (s.onStage hideChoices).resume.bare = (t.onStage hideChoices).resume.bare :=
    bare_resume h
  unfold Session.chosen
  rw [held]
  split
  · split
    · rename_i option _
      cases option.target with
      | none => exact congrArg Turn.goesOn closed
      | some target => exact congrArg Turn.goesOn (bare_jump game assets closed target)
    · exact congrArg Turn.rests h
  · exact congrArg Turn.rests h

/-! ## Moves -/

theorem lockstep_of_bare :
    Lockstep game { game with assets := assets } Session.Simulated
      fun _ (s : Session σ) (t : Session τ) => s.bare = t.bare where
  script := rfl
  same h := h.symm
  known i h := h.simulated i
  knownExecute _ i := i.execute game _
  knownDeferred _ i := ⟨i.failed, i.waited, i.unchecked⟩
  knownPosition _ i := ⟨i.failed, i.waited, i.unchecked⟩
  deferred cues h := congrArg (fun r : Session Unit => { r with deferred := cues }) h
  takes {_ s _} h := congrArg (fun r : Session Unit => { r with position := s.position + 1 }) h
  timers queue h := congrArg (fun r : Session Unit => { r with timers := queue }) h
  execute _ _ h := bare_execute game assets h _
  fire {_ s t _ timer timers} due i h := by
    obtain ⟨pending, -, -⟩ := Timers.popDue?_eq_some_iff.1 due
    have first : timer ∈ s.timers.pending := by
      rw [pending]
      exact List.mem_cons_self
    have popped : bare { s with timers := timers } = bare { t with timers := timers } :=
      congrArg (fun r : Session Unit => { r with timers := timers }) h
    exact Turn.rel_of_bare_eq
      (bare_fire game assets popped (i.popped due) (i.unchecked timer first))
  opened h := Turn.rel_of_bare_eq (bare_opened game assets h)
  pressed h := Turn.rel_of_bare_eq (bare_pressed game assets h)
  chosen index h := Turn.rel_of_bare_eq (bare_chosen game assets h index)

/-- **Moves leave two sessions that go by the same so, or have no result on both, whatever their
assets.** -/
theorem bare_follow (moves : List Move) (h : s.bare = t.bare) (simulated : s.Simulated) :
    (s.follow game moves).map bare = (t.follow { game with assets := assets } moves).map bare := by
  have followed := (lockstep_of_bare game assets).follow moves h simulated
  generalize s.follow game moves = here at followed ⊢
  generalize t.follow { game with assets := assets } moves = there at followed ⊢
  cases followed with
  | none => rfl
  | some same => exact congrArg some same

end

end VisualNovel
