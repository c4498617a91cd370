import VisualNovel.Proofs.Session.Outcome
import VisualNovel.Proofs.Stage.Matching

/-!
# What leaves the music alone

Music is started and stopped by the cues for music alone. Whatever else playback does, the session
goes on with the same music, and the stage is told of other things only.

* `Tuneless`               a relation of stages that no call breaks but those that start and stop music;
* `Session.SameMusic`      a session goes on with the same music, on a stage that is told of other things;
* `Session.SameMusic.execute`, `Session.SameMusic.fire`, `Session.SameMusic.pressed`,
  `Session.SameMusic.chosen`   what leaves the music alone.
-/

set_option linter.unusedSectionVars false

namespace VisualNovel

open Presentation Audio

variable {σ : Type} [Presentation σ] [Audio σ]

/-! ## Stages -/

def Direction.stopsMusic : Direction → Bool
  | stopMusic => true
  | _ => false

/-- a relation of stages, before and after some calls, that only calls about music break -/
structure Tuneless (R : σ → σ → Prop) : Prop where
  refl (p : σ) : R p p
  trans {p q r : σ} (first : R p q) (second : R q r) : R p r
  directed (d : Direction) (other : d.stopsMusic = false) (p : σ) : R p (d.on p)
  added (locator : String) (p : σ) : R p (addSprite p locator).2
  replaced (handle : Handle) (locator : String) (p : σ) : R p (replaceSprite p handle locator)
  removed (handle : Handle) (p : σ) : R p (removeSprite p handle)
  cleared (p : σ) : R p (clearSprites p)
  begun (style : TextStyle) (p : σ) : R p (clearText p style)
  pushed (c : Char) (p : σ) : R p (pushChar p c)
  filled (text : String) (p : σ) : R p (setText p text)
  videoPlayed (locator : String) (p : σ) : R p (playVideo p locator).2
  soundPlayed (key locator : String) (volume : Float32) (p : σ) :
    R p (playSound p key locator volume).2

namespace Tuneless

theorem trivial : Tuneless fun _ _ : σ => True := by constructor <;> intros <;> exact True.intro

variable {R : σ → σ → Prop} (tuneless : Tuneless R)
include tuneless

theorem clear (a : Scene σ) : R a.stage a.clear.stage := tuneless.cleared a.stage

theorem enter (name locator : String) (a : Scene σ) : R a.stage (a.enter name locator).stage := by
  unfold Scene.enter Scene.unhide
  split
  · exact tuneless.trans (tuneless.directed (.spritesVisible true) rfl a.stage)
      (tuneless.added locator _)
  · exact tuneless.added locator _

theorem leave (suffix name : String) (a : Scene σ) : R a.stage (a.leave suffix name).stage := by
  unfold Scene.leave
  split
  · exact tuneless.removed _ _
  · exact tuneless.refl _

theorem animateCast (assets : AssetTable) (suffix : String) (talking : Bool) (p : String → Bool)
    (cast : List Actor) (stage : σ) :
    R stage (Scene.animateCast assets suffix talking p cast stage).2.2 := by
  induction cast generalizing stage with
  | nil => exact tuneless.refl stage
  | cons actor cast ih =>
    simp only [Scene.animateCast]
    split
    · rename_i locator _
      exact tuneless.trans (tuneless.replaced actor.handle locator stage) (ih _)
    · exact ih stage

variable {game : Game}

theorem talk (line : Line) (talking : Bool) (a : Scene σ) :
    R a.stage (LineReveal.talk game line talking a).stage := by
  unfold LineReveal.talk
  split
  · rw [Scene.animate_eq]
    exact tuneless.animateCast _ _ _ _ a.cast a.stage
  · exact tuneless.refl _

theorem playBlip (speaker : Option String) (a : Scene σ) :
    R a.stage (LineReveal.playBlip game speaker a).stage := by
  unfold LineReveal.playBlip
  dsimp only
  split
  · exact tuneless.soundPlayed _ _ _ _
  · exact tuneless.refl _

theorem voice (line : Line) (c : Char) (a : Scene σ) :
    R a.stage (LineReveal.voice game line c a).stage := by
  unfold LineReveal.voice
  split
  · exact tuneless.trans (tuneless.playBlip line.speaker a) (tuneless.talk line true _)
  · exact tuneless.refl _

theorem begin (line : Line) (a : Scene σ) : R a.stage (LineReveal.begin line a).2.stage := by
  have quiet := tuneless.directed (.continueIndicator false) rfl a.stage
  have begun := tuneless.begun (if line.thought then .thought else .spoken) (showContinue a.stage false)
  exact tuneless.trans quiet
    (tuneless.trans begun (tuneless.directed (.speaker line.speaker) rfl _))

theorem finish (line : Line) (a : Scene σ) : R a.stage (LineReveal.finish game line a).2.stage := by
  have talked : R a.stage (LineReveal.talk game line false a).stage := tuneless.talk line false a
  unfold LineReveal.finish
  dsimp only
  split
  · exact talked
  · exact tuneless.trans talked (tuneless.directed (.continueIndicator true) rfl _)

theorem tick (r : LineReveal) (a : Scene σ) : R a.stage (LineReveal.tick game r a).2.2.stage := by
  unfold LineReveal.tick
  split
  · split
    · exact tuneless.finish _ a
    · rename_i c _
      exact tuneless.trans (tuneless.pushed c a.stage) (tuneless.voice _ c (a.onStage (pushChar · c)))
  · exact tuneless.refl _

theorem skip (r : LineReveal) (a : Scene σ) : R a.stage (LineReveal.skip game r a).2.2.stage := by
  unfold LineReveal.skip
  split
  · rename_i line _
    exact tuneless.trans (tuneless.filled line.text a.stage)
      (tuneless.finish line (a.onStage (setText · line.text)))
  · exact tuneless.refl _

end Tuneless

/-! ## Sessions -/

def Cue.isMusic : Cue → Bool
  | music _ _ => true
  | _ => false

namespace Session

/-- the session goes on with the same music, on a related stage -/
structure SameMusic (R : σ → σ → Prop) (s s' : Session σ) : Prop where
  stage : R s.stage s'.stage
  current : s'.currentMusic = s.currentMusic
  active : s'.musicActive = s.musicActive

namespace SameMusic

variable {R : σ → σ → Prop} {game : Game} {s s' s'' : Session σ}

theorem trans (tuneless : Tuneless R) (first : SameMusic R s s') (second : SameMusic R s' s'') :
    SameMusic R s s'' :=
  ⟨tuneless.trans first.stage second.stage, second.current.trans first.current,
    second.active.trans first.active⟩

variable (tuneless : Tuneless R)
include tuneless

theorem refl (s : Session σ) : SameMusic R s s := ⟨tuneless.refl s.stage, rfl, rfl⟩

theorem direct (d : Direction) (other : d.stopsMusic = false) (s : Session σ) :
    SameMusic R s (s.onStage d.on) :=
  ⟨tuneless.directed d other s.stage, rfl, rfl⟩

theorem showBackground (name : String) (s : Session σ) :
    SameMusic R s (s.showBackground game name) := by
  unfold Session.showBackground
  split
  · exact (direct tuneless (.background none) rfl s).trans tuneless
      (direct tuneless (.desk none) rfl _)
  · split
    · exact direct tuneless (.background _) rfl s
    · exact refl tuneless s

theorem clearCast (s : Session σ) : SameMusic R s s.clearCast := ⟨tuneless.clear s.scene, rfl, rfl⟩

theorem showView (name : String) (s : Session σ) : SameMusic R s (s.showView game name) := by
  unfold Session.showView
  split
  · rename_i preset _
    have shown : SameMusic R s (s.clearCast.showBackground game preset.background) :=
      (clearCast tuneless s).trans tuneless (showBackground tuneless preset.background s.clearCast)
    exact shown.trans tuneless (direct tuneless (.desk _) rfl _)
  · exact refl tuneless s

theorem enter (name locator : String) (s : Session σ) :
    SameMusic R s { s with scene := s.scene.enter name locator } :=
  ⟨tuneless.enter name locator s.scene, rfl, rfl⟩

theorem moveCharacter (name : Option String) (action : CastAction) (s : Session σ) :
    SameMusic R s (s.moveCharacter game name action) := by
  unfold Session.moveCharacter
  split
  · exact ⟨tuneless.leave _ _ s.scene, rfl, rfl⟩
  · exact clearCast tuneless s
  · exact refl tuneless s
  · split
    · dsimp only
      split
      · exact (clearCast tuneless s).trans tuneless (enter tuneless _ _ s.clearCast)
      · exact enter tuneless _ _ s
    · exact refl tuneless s

theorem playSound (name : String) (volume : Float32) (s : Session σ) :
    SameMusic R s (s.playSound game name volume) := by
  unfold Session.playSound
  dsimp only
  split
  · exact ⟨tuneless.soundPlayed _ _ volume s.stage, rfl, rfl⟩
  · exact refl tuneless s

theorem showLine (line : Line) (s : Session σ) : SameMusic R s (s.showLine game line) := by
  have shown := (direct tuneless (.textbox true) rfl s).trans tuneless
    (direct tuneless (.layer (if s.introMode then .video else .background)) rfl _)
  exact ⟨tuneless.trans shown.stage (tuneless.begin line _), rfl, rfl⟩

theorem stepCard (s : Session σ) : SameMusic R s (s.stepCard game) := by
  unfold Session.stepCard
  split
  · exact refl tuneless s
  · rename_i card _
    have newLine (needed : Bool) (card : CardReveal) : SameMusic R s
        (if needed then { s with card := some card }.onStage cardNewLine
          else { s with card := some card }) := by
      cases needed with
      | true => exact ⟨tuneless.directed .cardNewLine rfl s.stage, rfl, rfl⟩
      | false => exact ⟨tuneless.refl s.stage, rfl, rfl⟩
    dsimp only
    split
    · rename_i needed c rest _
      have pushed := (newLine needed rest).trans tuneless (direct tuneless (.cardChar c) rfl _)
      have blip (s : Session σ) : SameMusic R s
          (s.playSound game game.config.audio.introBlip game.config.audio.soundVolume) :=
        playSound tuneless _ _ s
      have heard := pushed.trans tuneless (blip _)
      exact ⟨heard.stage, heard.current, heard.active⟩
    · rename_i needed rest _
      have ended := newLine needed rest
      exact ⟨ended.stage, ended.current, ended.active⟩
    · exact ⟨tuneless.refl s.stage, rfl, rfl⟩

theorem beginCard (lines : List String) (s : Session σ) :
    SameMusic R s (s.beginCard game lines) := by
  have shown := (direct tuneless (.textbox false) rfl s).trans tuneless
    (direct tuneless (.card true) rfl _)
  unfold Session.beginCard
  have step (s : Session σ) : SameMusic R s (s.stepCard game) := stepCard tuneless s
  have stepped := step { ({ s with
      typing := true, introMode := true, waitingForInput := false }.suspend .introCard).onStage fun p =>
        showCard (showTextbox p false) true with
      cardShown := true, card := some (.ofLines lines) }
  exact ⟨tuneless.trans shown.stage stepped.stage, stepped.current, stepped.active⟩

theorem playVideo (name : String) (s : Session σ) : SameMusic R s (s.playVideo game name) := by
  unfold Session.playVideo
  dsimp only
  split
  · exact ⟨tuneless.refl s.stage, rfl, rfl⟩
  · rename_i locator _
    have played : R s.stage (Presentation.playVideo (setLayer s.stage .video) locator).2 :=
      tuneless.trans (tuneless.directed (.layer .video) rfl s.stage) (tuneless.videoPlayed locator _)
    split
    · exact ⟨played, rfl, rfl⟩
    · exact ⟨played, rfl, rfl⟩

theorem waitForVideo (seconds : Float) (s : Session σ) :
    SameMusic R s (s.waitForVideo game seconds) := by
  unfold Session.waitForVideo
  dsimp only
  split
  · exact ⟨tuneless.refl s.stage, rfl, rfl⟩
  · exact ⟨tuneless.refl s.stage, rfl, rfl⟩

theorem jump (target : String) (s : Session σ) : SameMusic R s (s.jump game target) := by
  unfold Session.jump
  split
  · exact ⟨tuneless.refl s.stage, rfl, rfl⟩
  · exact refl tuneless s

theorem execute {cue : Cue} (other : cue.isMusic = false) (s : Session σ) :
    SameMusic R s (s.execute game cue).2 := by
  cases cue with
  | background name => exact showBackground tuneless name s
  | view name => exact showView tuneless name s
  | music action name => cases other
  | sound name => exact playSound tuneless name _ s
  | character name action => exact moveCharacter tuneless name action s
  | dialogue line => exact showLine tuneless line s
  | video name => exact playVideo tuneless name s
  | waitVideo seconds => exact waitForVideo tuneless seconds s
  | introEnd =>
    have stopped := (direct tuneless .stopVideo rfl s).trans tuneless
      (direct tuneless (.layer .background) rfl _)
    exact ⟨stopped.stage, rfl, rfl⟩
  | introCard lines => exact beginCard tuneless lines s
  | sequence frames fps keepLast => exact ⟨tuneless.clear s.scene, rfl, rfl⟩
  | jump target => exact jump tuneless target s
  | choice options =>
    cases options with
    | nil => exact refl tuneless s
    | cons option options =>
      have asked := tuneless.directed (.choices ((option :: options).map ChoiceOption.text)) rfl s.stage
      exact ⟨asked, rfl, rfl⟩
  | wait | introStart | label | unknown => exact ⟨tuneless.refl s.stage, rfl, rfl⟩

/-! ## Timers and the player -/

theorem completeLine (completion : Completion) (s : Session σ) :
    SameMusic R s (s.completeLine game completion) := by
  cases completion <;> exact ⟨tuneless.refl s.stage, rfl, rfl⟩

theorem typeTick (s : Session σ) : SameMusic R s (s.typeTick game) := by
  have ticked : R s.stage (LineReveal.tick game s.reveal s.scene).2.2.stage :=
    tuneless.tick s.reveal s.scene
  unfold Session.typeTick
  split
  · split
    · rename_i completion reveal scene e
      rw [e] at ticked
      have revealed : SameMusic R s { s with reveal := reveal, scene := scene } := ⟨ticked, rfl, rfl⟩
      exact revealed.trans tuneless (completeLine tuneless completion _)
    · rename_i reveal scene e
      rw [e] at ticked
      exact ⟨ticked, rfl, rfl⟩
  · exact refl tuneless s

theorem nextFrame (s : Session σ) : SameMusic R s (s.nextFrame game).session := by
  unfold Session.nextFrame
  split
  · exact refl tuneless s
  · dsimp only
    split
    · exact ⟨tuneless.directed (.background _) rfl s.stage, rfl, rfl⟩
    · exact ⟨tuneless.refl s.stage, rfl, rfl⟩
  · dsimp only
    split
    · exact ⟨tuneless.refl s.stage, rfl, rfl⟩
    · exact ⟨tuneless.directed (.spritesVisible false) rfl s.stage, rfl, rfl⟩

theorem pollVideo (s : Session σ) : SameMusic R s (s.pollVideo game).session := by
  unfold Session.pollVideo
  split
  · split
    · exact ⟨tuneless.refl s.stage, rfl, rfl⟩
    · exact ⟨tuneless.refl s.stage, rfl, rfl⟩
  · exact refl tuneless s

theorem checkVideo (s : Session σ) : SameMusic R s s.checkVideo := by
  unfold Session.checkVideo
  split
  · exact ⟨tuneless.refl s.stage, rfl, rfl⟩
  · exact refl tuneless s

theorem fire (kind : TimerKind) (s : Session σ) : SameMusic R s (s.fire game kind).session := by
  cases kind with
  | advance => exact ⟨tuneless.refl s.stage, rfl, rfl⟩
  | typeTick => exact typeTick tuneless s
  | cardTick => exact stepCard tuneless s
  | frame => exact nextFrame tuneless s
  | videoPoll => exact pollVideo tuneless s
  | videoCheck => exact checkVideo tuneless s

theorem opened (s : Session σ) : SameMusic R s (s.opened game).session := by
  unfold Session.opened
  split
  · exact refl tuneless s
  · have loaded := (direct tuneless (.preload game.assets.images) rfl s).trans tuneless
      (direct tuneless .resumeAudio rfl _)
    exact ⟨loaded.stage, rfl, rfl⟩

theorem pressed (s : Session σ) : SameMusic R s (s.pressed game).session := by
  have skipped : R s.stage (LineReveal.skip game s.reveal s.scene).2.2.stage :=
    tuneless.skip s.reveal s.scene
  unfold Session.pressed
  split
  · exact refl tuneless s
  split
  · dsimp only
    split
    · have hidden := (direct tuneless (.card false) rfl s).trans tuneless
        (direct tuneless (.continueIndicator false) rfl _)
      exact ⟨hidden.stage, rfl, rfl⟩
    · exact ⟨tuneless.directed (.continueIndicator false) rfl s.stage, rfl, rfl⟩
  split
  · split
    · rename_i completion reveal scene e
      rw [e] at skipped
      have revealed : SameMusic R s { s with reveal := reveal, scene := scene } := ⟨skipped, rfl, rfl⟩
      exact revealed.trans tuneless (completeLine tuneless completion _)
    · rename_i reveal scene e
      rw [e] at skipped
      exact ⟨skipped, rfl, rfl⟩
  · exact refl tuneless s

theorem chosen (index : Nat) (s : Session σ) : SameMusic R s (s.chosen game index).session := by
  unfold Session.chosen
  split
  · split
    · have hidden : SameMusic R s (s.onStage hideChoices).resume :=
        ⟨tuneless.directed .hideChoices rfl s.stage, rfl, rfl⟩
      dsimp only
      split
      · exact hidden.trans tuneless (jump tuneless _ _)
      · exact hidden
    · exact refl tuneless s
  · exact refl tuneless s

end SameMusic

end Session

end VisualNovel
