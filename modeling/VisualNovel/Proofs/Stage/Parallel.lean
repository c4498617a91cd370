import VisualNovel.Proofs.Session.Lockstep
import VisualNovel.Proofs.Stage.Matching

/-!
# One session on two stages

On two matching stages a session goes through the same states, but for the stage itself. So whatever
a matching says of two stages holds after every operation, and an operation has a result on the one
stage if it has one on the other.

* `linesIn`                  the lines that have been carried out;
* `Session.Alike`            one session on two matching stages;
* `Session.Alike.execute`    cues keep it so, and timers and the player do;
* `Session.Alike.lockstep`, `Session.Alike.follow`   all moves keep it so.
-/

set_option linter.unusedSectionVars false

namespace VisualNovel

open Session Presentation Audio

def Deed.line? : Deed → Option Line
  | .does (.dialogue line) => some line
  | _ => none

/-- the lines that have been carried out, in order -/
def linesIn (deeds : List Deed) : List Line := deeds.filterMap Deed.line?

@[simp] theorem linesIn_append (deeds deeds' : List Deed) :
    linesIn (deeds ++ deeds') = linesIn deeds ++ linesIn deeds' :=
  List.filterMap_append

theorem linesIn_concat_of_none (deeds : List Deed) {deed : Deed} (quiet : deed.line? = none) :
    linesIn (deeds ++ [deed]) = linesIn deeds := by
  rw [linesIn_append, linesIn, linesIn, List.filterMap_cons_none quiet, List.filterMap_nil,
    List.append_nil]

variable {σ τ : Type}

namespace Session

def onto (s : Session σ) (scene : Scene τ) : Session τ := { s with scene := scene }

def Alike (R : List Handle → List String → σ → τ → Prop) (lines : List Line) (s : Session σ)
    (t : Session τ) : Prop :=
  ∃ scene, t = s.onto scene ∧ s.scene.Alike R (shownOf lines s.reveal) scene ∧
    ∀ line n, s.reveal = .revealing line n → lines.getLast? = some line

variable [Presentation σ] [Audio σ] [Presentation τ] [Audio τ]
  {game : Game} {R : List Handle → List String → σ → τ → Prop} {lines : List Line}
  {s : Session σ} {t : Session τ}

namespace Alike

theorem eq_onto (h : s.Alike R lines t) : ∃ scene, t = s.onto scene :=
  h.imp fun _ alike => alike.1

/-- one session is the other but for its stage, and the stages match -/
theorem stage_eq (h : s.Alike R lines t) :
    t = s.onto (s.scene.onto t.stage) ∧
      R s.scene.handles (shownOf lines s.reveal) s.stage t.stage := by
  obtain ⟨_, rfl, ⟨stage, rfl, related⟩, -⟩ := h
  exact ⟨rfl, related⟩

theorem new {stage : σ} {stage' : τ} (h : R [] [] stage stage') :
    (ofStage stage).Alike R [] (ofStage stage') :=
  ⟨_, rfl, ⟨stage', rfl, h⟩, nofun⟩

theorem adjust (h : s.Alike R lines t) (f : (ρ : Type) → Session ρ → Session ρ)
    (same : ∀ scene, f τ (s.onto scene) = (f σ s).onto scene) (scene : (f σ s).scene = s.scene)
    (reveal : (f σ s).reveal = s.reveal) :
    (f σ s).Alike R lines (f τ t) := by
  obtain ⟨other, rfl, alike, last⟩ := h
  refine ⟨other, same other, ?_, ?_⟩
  · rw [scene, reveal]
    exact alike
  · rw [reveal]
    exact last

theorem resume (h : s.Alike R lines t) : s.resume.Alike R lines t.resume :=
  h.adjust (fun _ s => s.resume) (fun _ => rfl) rfl rfl

theorem suspend (h : s.Alike R lines t) (why : Suspension) :
    (s.suspend why).Alike R lines (t.suspend why) :=
  h.adjust (fun _ s => s.suspend why) (fun _ => rfl) rfl rfl

theorem schedule (h : s.Alike R lines t) (delay : Nat) (kind : TimerKind) :
    (s.schedule delay kind).Alike R lines (t.schedule delay kind) :=
  h.adjust (fun _ s => s.schedule delay kind) (fun _ => rfl) rfl rfl

theorem restage (h : s.Alike R lines t) {a : Scene σ} {b : Scene τ}
    (alike : a.Alike R (shownOf lines s.reveal) b) :
    Alike R lines { s with scene := a } { t with scene := b } := by
  obtain ⟨other, rfl, -, last⟩ := h
  exact ⟨b, rfl, alike, last⟩

theorem ite {c : Prop} [Decidable c] {s' : Session σ} {t' : Session τ} (h : s.Alike R lines t)
    (h' : s'.Alike R lines t') : Alike R lines (if c then s else s') (if c then t else t') := by
  split
  · exact h
  · exact h'

/-! ## Pictures and sounds -/

theorem onStage (matching : Matching game.assets R) (h : s.Alike R lines t) (d : Direction) :
    (s.onStage d.on).Alike R lines (t.onStage d.on) := by
  obtain ⟨scene, rfl, alike, last⟩ := h
  exact ⟨_, rfl, alike.direct matching d, last⟩

theorem showBackground (matching : Matching game.assets R) (h : s.Alike R lines t) (name : String) :
    (s.showBackground game name).Alike R lines (t.showBackground game name) := by
  unfold Session.showBackground
  split
  · exact (h.onStage matching (.background none)).onStage matching (.desk none)
  · split
    · exact h.onStage matching (.background _)
    · exact h

theorem clearCast (matching : Matching game.assets R) (h : s.Alike R lines t) :
    s.clearCast.Alike R lines t.clearCast := by
  obtain ⟨scene, rfl, alike, last⟩ := h
  exact ⟨_, rfl, alike.clear matching, last⟩

theorem showView (matching : Matching game.assets R) (h : s.Alike R lines t) (name : String) :
    (s.showView game name).Alike R lines (t.showView game name) := by
  unfold Session.showView
  split
  · exact ((h.clearCast matching).showBackground matching _).onStage matching (.desk _)
  · exact h

theorem enter (matching : Matching game.assets R) (h : s.Alike R lines t) (name locator : String) :
    Alike R lines { s with scene := s.scene.enter name locator }
      { t with scene := t.scene.enter name locator } := by
  obtain ⟨scene, rfl, alike, last⟩ := h
  exact ⟨_, rfl, alike.enter matching name locator, last⟩

theorem moveCharacter (matching : Matching game.assets R) (h : s.Alike R lines t)
    (name : Option String) (action : CastAction) :
    (s.moveCharacter game name action).Alike R lines (t.moveCharacter game name action) := by
  unfold Session.moveCharacter
  split
  · obtain ⟨scene, rfl, alike, last⟩ := h
    exact ⟨_, rfl, alike.leave matching _ _, last⟩
  · exact h.clearCast matching
  · exact h
  · split
    · dsimp only
      split
      · exact (h.clearCast matching).enter matching _ _
      · exact h.enter matching _ _
    · exact h

theorem playSound (matching : Matching game.assets R) (h : s.Alike R lines t) (name : String)
    (volume : Float32) : (s.playSound game name volume).Alike R lines (t.playSound game name volume) := by
  unfold Session.playSound
  dsimp only
  split
  · rename_i locator found
    obtain ⟨scene, rfl, ⟨stage, rfl, alike⟩, last⟩ := h
    exact ⟨_, rfl, ⟨_, rfl, matching.soundPlayed volume found alike⟩, last⟩
  · exact h

theorem stopMusic (matching : Matching game.assets R) (h : s.Alike R lines t) :
    s.stopMusic.Alike R lines t.stopMusic := by
  obtain ⟨scene, rfl⟩ := h.eq_onto
  have silent := ite (c := s.musicActive) (h.onStage matching .stopMusic) h
  exact silent.adjust (fun _ s => { s with musicActive := false, currentMusic := none })
    (fun _ => rfl) rfl rfl

theorem switchOn (matching : Matching game.assets R) (h : s.Alike R lines t) :
    Alike R lines (if audioSuspended s.stage then s.onStage resumeAudio else s)
      (if audioSuspended t.stage then t.onStage resumeAudio else t) := by
  have inside {ρ : Type} [Presentation ρ] [Audio ρ] (s : Session ρ) :
      (if audioSuspended s.stage then s.onStage resumeAudio else s) = s.onStage fun stage =>
        if audioSuspended stage then resumeAudio stage else stage := by
    show _ = { s with scene := { s.scene with
      stage := if audioSuspended s.stage then resumeAudio s.stage else s.stage } }
    split <;> rfl
  rw [inside, inside]
  obtain ⟨scene, rfl, ⟨stage, rfl, alike⟩, last⟩ := h
  exact ⟨_, rfl, ⟨_, rfl, matching.switchedOn alike⟩, last⟩

theorem startMusic (matching : Matching game.assets R) (h : s.Alike R lines t) {key locator : String}
    (found : game.assets.get? key = some locator) (volume : Float32) :
    Alike R lines
      { s with
        scene := { s.scene with stage := (Audio.playMusic s.scene.stage key locator volume).2 }
        currentMusic := some key
        musicActive := (Audio.playMusic s.scene.stage key locator volume).1 }
      { t with
        scene := { t.scene with stage := (Audio.playMusic t.scene.stage key locator volume).2 }
        currentMusic := some key
        musicActive := (Audio.playMusic t.scene.stage key locator volume).1 } := by
  obtain ⟨scene, rfl, ⟨stage, rfl, alike⟩, last⟩ := h
  obtain ⟨heard, played⟩ := matching.musicPlayed volume found alike
  refine ⟨_, ?_, ⟨_, rfl, played⟩, last⟩
  rw [heard]
  rfl

theorem playMusic (matching : Matching game.assets R) (h : s.Alike R lines t) (name : String) :
    (s.playMusic game name).Alike R lines (t.playMusic game name) := by
  obtain ⟨scene, rfl⟩ := h.eq_onto
  refine ite (c := s.musicActive && s.currentMusic == some (musicKey name)) (h.switchOn matching) ?_
  split
  · rename_i locator found
    exact (h.stopMusic matching).startMusic matching found _
  · exact h.stopMusic matching

theorem music (matching : Matching game.assets R) (h : s.Alike R lines t) (action : MusicAction)
    (name : Option String) : (s.music game action name).Alike R lines (t.music game action name) := by
  unfold Session.music
  split
  · exact h.playMusic matching _
  · exact h
  · exact h.onStage matching .suspendAudio
  · exact h.onStage matching .resumeAudio
  · exact h.stopMusic matching

/-! ## Lines, cards and sequences -/

theorem begin (matching : Matching game.assets R) (h : s.Alike R lines t)
    (shown : s.reveal.isRevealing = false) (line : Line) :
    Alike R (lines ++ [line])
      { s with reveal := .revealing line 0, scene := (LineReveal.begin line s.scene).2 }
      { t with reveal := .revealing line 0, scene := (LineReveal.begin line t.scene).2 } := by
  have done : shownOf lines s.reveal = lines.map Line.text := by
    cases reveal : s.reveal with
    | revealing line n =>
      rw [reveal] at shown
      cases shown
    | _ => rfl
  obtain ⟨scene, rfl, alike, -⟩ := h
  refine ⟨_, rfl, ?_, fun line' n e => ?_⟩
  · have begun := alike.begin matching line
    rw [done] at begun
    rw [shownOf, List.dropLast_concat]
    exact begun
  · cases e
    exact List.getLast?_concat

theorem showLine (matching : Matching game.assets R) (h : s.Alike R lines t)
    (shown : s.reveal.isRevealing = false) (line : Line) :
    (s.showLine game line).Alike R (lines ++ [line]) (t.showLine game line) := by
  obtain ⟨scene, rfl⟩ := h.eq_onto
  have dressed := (h.onStage matching (.textbox true)).onStage matching
    (.layer (if s.introMode then .video else .background))
  have ready := dressed.adjust (fun _ s => { s with waitingForInput := false, typing := true })
    (fun _ => rfl) rfl rfl
  exact ((ready.suspend .typing).begin matching shown line).schedule _ _

theorem stepCard (matching : Matching game.assets R) (h : s.Alike R lines t) :
    (s.stepCard game).Alike R lines (t.stepCard game) := by
  obtain ⟨scene, rfl⟩ := h.eq_onto
  unfold Session.stepCard
  dsimp only [onto]
  split
  · exact h
  · split
    · rename_i needed c rest _
      have next := h.adjust (fun _ s => { s with card := some rest }) (fun _ => rfl) rfl rfl
      have begun := ite (c := needed) (next.onStage matching .cardNewLine) next
      have shown := (begun.onStage matching (.cardChar c)).playSound matching
        game.config.audio.introBlip game.config.audio.soundVolume
      exact shown.schedule _ _
    · rename_i needed rest _
      have next := h.adjust (fun _ s => { s with card := some rest }) (fun _ => rfl) rfl rfl
      have begun := ite (c := needed) (next.onStage matching .cardNewLine) next
      exact begun.schedule _ _
    · have ended := h.adjust (fun _ s => { s with card := none, typing := false }) (fun _ => rfl)
        rfl rfl
      exact ended.resume.adjust (fun _ s => { s with waitingForInput := true }) (fun _ => rfl) rfl rfl

theorem beginCard (matching : Matching game.assets R) (h : s.Alike R lines t) (cardLines : List String) :
    (s.beginCard game cardLines).Alike R lines (t.beginCard game cardLines) := by
  unfold Session.beginCard
  refine stepCard matching ?_
  have ready := h.adjust
    (fun _ s => { s with typing := true, introMode := true, waitingForInput := false })
    (fun _ => rfl) rfl rfl
  have begun := ((ready.suspend .introCard).onStage matching (.textbox false)).onStage matching
    (.card true)
  exact begun.adjust (fun _ s => { s with cardShown := true, card := some (.ofLines cardLines) })
    (fun _ => rfl) rfl rfl

theorem beginSequence (matching : Matching game.assets R) (h : s.Alike R lines t)
    (frames : List String) (fps : Float) (keepLast : Bool) :
    (s.beginSequence frames fps keepLast).Alike R lines (t.beginSequence frames fps keepLast) := by
  have begun := (h.clearCast matching).adjust
    (fun _ s => { s with flipbook := some ⟨frames, frameInterval fps, keepLast⟩ }) (fun _ => rfl)
    rfl rfl
  exact (begun.suspend .sequence).schedule _ _

/-! ## Videos and control -/

theorem fail (h : s.Alike R lines t) :
    Alike R lines { s with videoFailedAt := some s.now } { t with videoFailedAt := some t.now } :=
  h.adjust (fun _ s => { s with videoFailedAt := some s.now }) (fun _ => rfl) rfl rfl

theorem playVideo (matching : Matching game.assets R) (h : s.Alike R lines t) (name : String) :
    (s.playVideo game name).Alike R lines (t.playVideo game name) := by
  have counted := h.adjust
    (fun _ s => { s with videoGeneration := s.videoGeneration + 1, videoFailedAt := none })
    (fun _ => rfl) rfl rfl
  unfold Session.playVideo
  dsimp only
  split
  · exact counted.fail
  · rename_i locator _
    obtain ⟨scene, rfl, ⟨stage, rfl, alike⟩, -⟩ := id h
    obtain ⟨sameOk, played⟩ := matching.videoPlayed locator (matching.directed (.layer .video) alike)
    simp only [Direction.on] at sameOk played
    simp only [onto, Scene.onto] at counted ⊢
    generalize Presentation.playVideo (setLayer s.scene.stage .video) locator = here
      at sameOk played ⊢
    generalize Presentation.playVideo (setLayer stage .video) locator = there at sameOk played ⊢
    obtain ⟨started, p⟩ := here
    obtain ⟨started', q⟩ := there
    have same : Scene.Alike R (shownOf lines s.reveal) { s.scene with stage := p }
        (s.scene.onto q) := ⟨q, rfl, played⟩
    have shown := counted.restage same
    cases started <;> cases started'
    · exact shown.fail
    · cases sameOk
    · cases sameOk
    · exact shown.adjust
        (fun _ s =>
          { s with
            timers := s.timers.schedule game.config.timing.videoStall .videoCheck
              (.video s.videoGeneration) })
        (fun _ => rfl) rfl rfl

theorem waitForVideo (h : s.Alike R lines t) (seconds : Float) :
    (s.waitForVideo game seconds).Alike R lines (t.waitForVideo game seconds) := by
  obtain ⟨scene, rfl⟩ := h.eq_onto
  have since := ite (c := s.videoGeneration = 0) h.fail h
  exact (since.suspend (.videoWait seconds)).schedule _ _

theorem jump (h : s.Alike R lines t) (target : String) :
    (s.jump game target).Alike R lines (t.jump game target) := by
  unfold Session.jump
  split
  · rename_i place _
    exact h.adjust (fun _ s => { s with position := place, epoch := s.epoch + 1 }) (fun _ => rfl)
      rfl rfl
  · exact h

theorem openChoice (matching : Matching game.assets R) (h : s.Alike R lines t)
    (options : List ChoiceOption) :
    (s.openChoice options).1 = (t.openChoice options).1 ∧
      (s.openChoice options).2.Alike R lines (t.openChoice options).2 := by
  unfold Session.openChoice
  split
  · exact ⟨rfl, h⟩
  · exact ⟨rfl, (h.onStage matching (.choices _)).suspend _⟩

/-! ## Cues -/

theorem execute (matching : Matching game.assets R) (h : s.Alike R lines t) (cue : Cue)
    (shown : ∀ line, cue = .dialogue line → s.reveal.isRevealing = false) :
    (s.execute game cue).1 = (t.execute game cue).1 ∧
      (s.execute game cue).2.Alike R (lines ++ linesIn [.does cue]) (t.execute game cue).2 := by
  have none (quiet : linesIn [.does cue] = []) : lines ++ linesIn [.does cue] = lines := by
    rw [quiet, List.append_nil]
  cases cue with
  | dialogue line => exact ⟨rfl, h.showLine matching (shown line rfl) line⟩
  | background name =>
    rw [none rfl]
    exact ⟨rfl, h.showBackground matching name⟩
  | view name =>
    rw [none rfl]
    exact ⟨rfl, h.showView matching name⟩
  | music action name =>
    rw [none rfl]
    exact ⟨rfl, h.music matching action name⟩
  | sound name =>
    rw [none rfl]
    exact ⟨rfl, h.playSound matching name _⟩
  | character name action =>
    rw [none rfl]
    exact ⟨rfl, h.moveCharacter matching name action⟩
  | wait seconds =>
    rw [none rfl]
    exact ⟨rfl, (h.suspend .waiting).schedule _ _⟩
  | video name =>
    rw [none rfl]
    exact ⟨rfl, h.playVideo matching name⟩
  | waitVideo seconds =>
    rw [none rfl]
    exact ⟨rfl, h.waitForVideo seconds⟩
  | introStart =>
    rw [none rfl]
    exact ⟨rfl, h.adjust (fun _ s => { s with introMode := true }) (fun _ => rfl) rfl rfl⟩
  | introEnd =>
    rw [none rfl]
    have ended := h.adjust (fun _ s => { s with introMode := false }) (fun _ => rfl) rfl rfl
    exact ⟨rfl, (ended.onStage matching .stopVideo).onStage matching (.layer .background)⟩
  | introCard cardLines =>
    rw [none rfl]
    exact ⟨rfl, h.beginCard matching cardLines⟩
  | sequence frames fps keepLast =>
    rw [none rfl]
    exact ⟨rfl, h.beginSequence matching frames fps keepLast⟩
  | jump target =>
    rw [none rfl]
    exact ⟨rfl, h.jump target⟩
  | choice options =>
    rw [none rfl]
    exact h.openChoice matching options
  | label | unknown =>
    rw [none rfl]
    exact ⟨rfl, h⟩

/-! ## Timers -/

theorem completeLine (h : s.Alike R lines t) (completion : Completion) :
    (s.completeLine game completion).Alike R lines (t.completeLine game completion) := by
  have done := h.adjust (fun _ s => { s with typing := false }) (fun _ => rfl) rfl rfl
  cases completion with
  | autoAdvance => exact (done.suspend .autoAdvance).schedule _ _
  | waitForInput =>
    exact done.resume.adjust (fun _ s => { s with waitingForInput := true }) (fun _ => rfl) rfl rfl

theorem revealed (h : s.Alike R lines t) {reveal : LineReveal} {a : Scene σ} {b : Scene τ}
    (alike : a.Alike R (shownOf lines reveal) b)
    (last : ∀ line n, reveal = .revealing line n → lines.getLast? = some line) :
    Alike R lines { s with reveal := reveal, scene := a } { t with reveal := reveal, scene := b } := by
  obtain ⟨scene, rfl⟩ := h.eq_onto
  exact ⟨b, rfl, alike, last⟩

theorem typeTick (matching : Matching game.assets R) (h : s.Alike R lines t) :
    (s.typeTick game).Alike R lines (t.typeTick game) := by
  obtain ⟨scene, rfl, alike, last⟩ := id h
  obtain ⟨completed, shown, a, b, here, there, alike, last⟩ := alike.tick matching last
  have there : LineReveal.tick game (s.onto scene).reveal (s.onto scene).scene =
      (completed, shown, b) := there
  have further := h.revealed alike last
  refine ite (c := s.reveal.isRevealing) ?_ h
  rw [here, there]
  cases completed with
  | none => exact further.schedule _ _
  | some completion => exact further.completeLine completion

theorem hideSprites (h : s.Alike R lines t) :
    Alike R lines { s with scene := { s.scene with spritesHidden := true } }
      { t with scene := { t.scene with spritesHidden := true } } := by
  obtain ⟨scene, rfl, ⟨stage, rfl, alike⟩, last⟩ := h
  exact ⟨_, rfl, ⟨stage, rfl, alike⟩, last⟩

theorem nextFrame (matching : Matching game.assets R) (h : s.Alike R lines t) :
    Turn.Rel (Alike R lines) (s.nextFrame game) (t.nextFrame game) := by
  obtain ⟨scene, rfl⟩ := h.eq_onto
  unfold Session.nextFrame
  dsimp only [onto]
  split
  · exact .rests h
  · rename_i frame frames interval keepLast _
    have turned := h.adjust (fun _ s => { s with flipbook := some ⟨frames, interval, keepLast⟩ })
      (fun _ => rfl) rfl rfl
    cases game.assets.get? frame with
    | none => exact .rests (turned.schedule interval .frame)
    | some locator =>
      have shown := turned.onStage matching (.background locator)
      exact .rests (shown.schedule interval .frame)
  · rename_i interval keepLast _
    have ended := h.adjust (fun _ s => { s with flipbook := none }) (fun _ => rfl) rfl rfl
    cases keepLast with
    | true => exact .goesOn ended.resume
    | false => exact .goesOn (ended.onStage matching (.spritesVisible false)).hideSprites.resume

theorem pollVideo (matching : Matching game.assets R) (h : s.Alike R lines t) :
    Turn.Rel (Alike R lines) (s.pollVideo game) (t.pollVideo game) := by
  obtain ⟨scene, rfl, ⟨stage, rfl, alike⟩, -⟩ := id h
  obtain ⟨time, -, ended⟩ := matching.videoSeen alike
  have clock : (s.onto (s.scene.onto stage)).videoClock = s.videoClock := by
    unfold videoClock
    dsimp only [onto]
    split
    · rfl
    · exact time.symm
  have ended : videoEnded (s.onto (s.scene.onto stage)).stage = videoEnded s.stage := ended.symm
  have held : (s.onto (s.scene.onto stage)).suspension = s.suspension := rfl
  unfold Session.pollVideo
  rw [clock, ended, held]
  split
  · split
    · exact .goesOn h.resume
    · exact .rests (h.schedule _ _)
  · exact .rests h

theorem checkVideo (matching : Matching game.assets R) (h : s.Alike R lines t) :
    s.checkVideo.Alike R lines t.checkVideo := by
  obtain ⟨scene, rfl, ⟨stage, rfl, alike⟩, -⟩ := id h
  obtain ⟨-, paused, -⟩ := matching.videoSeen alike
  have paused : videoPaused (s.onto (s.scene.onto stage)).stage = videoPaused s.stage := paused.symm
  unfold Session.checkVideo
  rw [paused]
  exact ite (c := s.videoFailedAt.isNone && videoPaused s.stage) h.fail h

theorem fire (matching : Matching game.assets R) (h : s.Alike R lines t) (kind : TimerKind) :
    Turn.Rel (Alike R lines) (s.fire game kind) (t.fire game kind) := by
  cases kind with
  | advance => exact .goesOn h.resume
  | typeTick => exact .rests (h.typeTick matching)
  | cardTick => exact .rests (h.stepCard matching)
  | frame => exact h.nextFrame matching
  | videoPoll => exact h.pollVideo matching
  | videoCheck => exact .rests (h.checkVideo matching)

/-! ## The player -/

theorem opened (matching : Matching game.assets R) (h : s.Alike R lines t) :
    Turn.Rel (Alike R lines) (s.opened game) (t.opened game) := by
  obtain ⟨scene, rfl⟩ := h.eq_onto
  have started : (s.onto scene).started = s.started := rfl
  unfold Session.opened
  rw [started]
  split
  · exact .rests h
  · have begun := h.adjust (fun _ s => { s with started := true }) (fun _ => rfl) rfl rfl
    have loaded := begun.onStage matching (.preload game.assets.images)
    exact .goesOn (loaded.onStage matching .resumeAudio)

theorem pressed (matching : Matching game.assets R) (h : s.Alike R lines t) :
    Turn.Rel (Alike R lines) (s.pressed game) (t.pressed game) := by
  obtain ⟨scene, rfl, alike, last⟩ := id h
  have choosing : (s.onto scene).isChoosing = s.isChoosing := rfl
  have waiting : (s.onto scene).waitingForInput = s.waitingForInput := rfl
  have typing : ((s.onto scene).typing && (s.onto scene).reveal.isRevealing) =
      (s.typing && s.reveal.isRevealing) := rfl
  unfold Session.pressed
  rw [choosing, waiting, typing]
  split
  · exact .rests h
  split
  · have away := (h.onStage matching (.card false)).adjust (fun _ s => { s with cardShown := false })
      (fun _ => rfl) rfl rfl
    have ready := (ite (c := s.cardShown) away h).adjust
      (fun _ s => { s with waitingForInput := false }) (fun _ => rfl) rfl rfl
    exact .goesOn (ready.onStage matching (.continueIndicator false))
  split
  · obtain ⟨completed, shown, a, b, here, there, alike, last⟩ := alike.skip matching last
    have there : LineReveal.skip game (s.onto scene).reveal (s.onto scene).scene =
        (completed, shown, b) := there
    have further := h.revealed alike last
    rw [here, there]
    cases completed with
    | none => exact .rests further
    | some completion => exact .rests (further.completeLine completion)
  · exact .rests h

theorem chosen (matching : Matching game.assets R) (h : s.Alike R lines t) (index : Nat) :
    Turn.Rel (Alike R lines) (s.chosen game index) (t.chosen game index) := by
  obtain ⟨scene, rfl⟩ := h.eq_onto
  have held : (s.onto scene).suspension = s.suspension := rfl
  have closed := (h.onStage matching .hideChoices).resume
  unfold Session.chosen
  rw [held]
  split
  · split
    · rename_i option _
      cases option.target with
      | none => exact .goesOn closed
      | some target => exact .goesOn (closed.jump target)
    · exact .rests h
  · exact .rests h

/-! ## Moves -/

/-- a cue that suspends is carried out only while nothing is being revealed -/
theorem shown_of_held (inMode : s.InMode) {cue : Cue} (held : s.isBusy = true → cue.suspends = false)
    (line : Line) (e : cue = .dialogue line) : s.reveal.isRevealing = false := by
  have free : s.isBusy = false := by
    rw [Bool.eq_false_iff]
    intro busy
    have quiet := held busy
    rw [e] at quiet
    cases quiet
  exact (nothing_of_free inMode (suspension_of_free free)).2.1

theorem lockstep (matching : Matching game.assets R) :
    Lockstep game game (fun s => s.InStep ∧ s.InMode) fun deeds => Alike R (linesIn deeds) where
  script := rfl
  same h := by
    obtain ⟨scene, rfl⟩ := h.eq_onto
    rfl
  known i h := ⟨h.inStep i.1, h.inMode i.1 i.2⟩
  knownExecute held i := ⟨inStep_execute game _ i.1, inMode_execute game _ held i.2⟩
  knownDeferred _ i := i
  knownPosition _ i := i
  deferred cues h := h.adjust (fun _ s => { s with deferred := cues }) (fun _ => rfl) rfl rfl
  takes {_ s _} h := by
    rw [linesIn_concat_of_none _ rfl]
    exact h.adjust (fun _ t => { t with position := s.position + 1 }) (fun _ => rfl) rfl rfl
  timers queue h := h.adjust (fun _ s => { s with timers := queue }) (fun _ => rfl) rfl rfl
  execute held i h := by
    rw [linesIn_append]
    exact h.execute matching _ (shown_of_held i.2 held)
  fire {_ _ _ _ timer timers} _ _ h := by
    rw [linesIn_concat_of_none _ rfl]
    have popped := h.adjust (fun _ s => { s with timers := timers }) (fun _ => rfl) rfl rfl
    exact popped.fire matching timer.kind
  opened h := h.opened matching
  pressed h := h.pressed matching
  chosen index h := h.chosen matching index

/-- **Moves that are made of one session on two matching stages leave one session on two matching
stages, or have no result on either.** -/
theorem follow (matching : Matching game.assets R) (moves : List Move) (h : s.Alike R [] t)
    (inStep : s.InStep) (inMode : s.InMode) :
    Option.Rel (Alike R (linesIn (s.followed game moves))) (s.follow game moves)
      (t.follow game moves) :=
  (lockstep matching).follow moves h ⟨inStep, inMode⟩

end Alike

end Session

end VisualNovel
