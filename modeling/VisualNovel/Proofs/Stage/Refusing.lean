import VisualNovel.Proofs.Session.Control
import VisualNovel.Proofs.Stage.Parallel
import VisualNovel.Stage.Recording

/-!
# Recording stages without videos

A recording stage whose videos fail never starts one, whatever is done on it. So what playback goes by
on such a stage depends on neither the assets nor the sounds that can be heard.

* `RecordingStage.Refuses`      the stage starts no video;
* `RefusingStage`               such stages, and what is done on them;
* `assets_do_not_steer`         two runs with different assets and sounds go the same way.
-/

namespace VisualNovel

open Presentation Audio

/-- every video fails, and none has ended -/
def RecordingStage.Refuses (stage : RecordingStage) : Prop :=
  stage.screen.videoBehavior = .fails ∧ stage.screen.videoEnded = false

def RefusingStage : Type := { stage : RecordingStage // stage.Refuses }

namespace RefusingStage

def of (stage : RecordingStage) (refuses : stage.Refuses) : RefusingStage := ⟨stage, refuses⟩

theorem refuses_playVideo {stage : RecordingStage} (h : stage.Refuses) (locator : String) :
    (playVideo stage locator).1.isOk = false ∧ (playVideo stage locator).2.Refuses := by
  have fails : stage.screen.videoBehavior = .fails := h.1
  simp [Presentation.playVideo, RecordingStage.Refuses, Screen.log, fails, Except.isOk, Except.toBool]

instance : Presentation RefusingStage where
  preload s locators := ⟨preload s.1 locators, s.2⟩
  setBackground s locator := ⟨setBackground s.1 locator, s.2⟩
  setDesk s locator := ⟨setDesk s.1 locator, s.2⟩
  setLayer s layer := ⟨setLayer s.1 layer, s.2⟩
  addSprite s locator := ((addSprite s.1 locator).1, ⟨(addSprite s.1 locator).2, s.2⟩)
  replaceSprite s handle locator := ⟨replaceSprite s.1 handle locator, s.2⟩
  removeSprite s handle := ⟨removeSprite s.1 handle, s.2⟩
  clearSprites s := ⟨clearSprites s.1, s.2⟩
  setSpritesVisible s visible := ⟨setSpritesVisible s.1 visible, s.2⟩
  showTextbox s visible := ⟨showTextbox s.1 visible, s.2⟩
  setSpeaker s name := ⟨setSpeaker s.1 name, s.2⟩
  clearText s style := ⟨clearText s.1 style, s.2⟩
  pushChar s c := ⟨pushChar s.1 c, s.2⟩
  setText s text := ⟨setText s.1 text, s.2⟩
  showContinue s visible := ⟨showContinue s.1 visible, s.2⟩
  showCard s visible := ⟨showCard s.1 visible, s.2⟩
  cardNewLine s := ⟨cardNewLine s.1, s.2⟩
  cardPushChar s c := ⟨cardPushChar s.1 c, s.2⟩
  playVideo s locator :=
    ((playVideo s.1 locator).1, ⟨(playVideo s.1 locator).2, (refuses_playVideo s.2 locator).2⟩)
  stopVideo s := ⟨stopVideo s.1, s.2⟩
  videoTime s := videoTime s.1
  videoPaused s := videoPaused s.1
  videoEnded s := videoEnded s.1
  showChoices s labels := ⟨showChoices s.1 labels, s.2⟩
  hideChoices s := ⟨hideChoices s.1, s.2⟩

instance : Audio RefusingStage where
  playSound s key locator volume :=
    ((playSound s.1 key locator volume).1, ⟨(playSound s.1 key locator volume).2, s.2⟩)
  playMusic s key locator volume :=
    ((playMusic s.1 key locator volume).1, ⟨(playMusic s.1 key locator volume).2, s.2⟩)
  stopMusic s := ⟨stopMusic s.1, s.2⟩
  suspendAudio s := ⟨suspendAudio s.1, s.2⟩
  resumeAudio s := ⟨resumeAudio s.1, s.2⟩
  audioSuspended s := audioSuspended s.1

instance : RefusesVideos RefusingStage where
  refuses s locator := (refuses_playVideo s.2 locator).1
  ended s := s.2.2

theorem matching (assets : AssetTable) :
    Matching assets fun _ _ (p : RefusingStage) (q : RecordingStage) => p.1 = q where
  directed d h := by
    subst h
    cases d <;> rfl
  switchedOn h := by
    subst h
    exact apply_ite Subtype.val _ _ _
  added locator h := ⟨congrArg (fun s => (addSprite s locator).1) h,
    congrArg (fun s => (addSprite s locator).2) h⟩
  replaced locator _ h := congrArg (replaceSprite · _ locator) h
  removed h := congrArg (removeSprite · _) h
  cleared h := congrArg clearSprites h
  begun style h := congrArg (clearText · style) h
  pushed c h := congrArg (pushChar · c) h
  filled _ h := congrArg (setText · _) h
  videoPlayed locator h := ⟨congrArg (fun s => (playVideo s locator).1.isOk) h,
    congrArg (fun s => (playVideo s locator).2) h⟩
  videoSeen h := ⟨congrArg videoTime h, congrArg videoPaused h, congrArg videoEnded h⟩
  soundPlayed volume _ h := congrArg (fun s => (playSound s _ _ volume).2) h
  musicPlayed volume _ h := ⟨congrArg (fun s => (playMusic s _ _ volume).1) h,
    congrArg (fun s => (playMusic s _ _ volume).2) h⟩

end RefusingStage

/-- a session on such a stage is one on the recording stage, with the same result of all moves -/
theorem bare_follow_refusing (game : Game) {stage : RecordingStage} (refuses : stage.Refuses)
    (moves : List Move) :
    (Session.follow game moves (.ofStage (RefusingStage.of stage refuses))).map Session.bare =
      (Session.follow game moves (.ofStage stage)).map Session.bare := by
  have matching := RefusingStage.matching game.assets
  have alike : (Session.ofStage (RefusingStage.of stage refuses)).Alike
      (fun _ _ (p : RefusingStage) (q : RecordingStage) => p.1 = q) [] (.ofStage stage) := .new rfl
  have followed := alike.follow matching moves (inStep_new _) (inMode_new _)
  generalize Session.follow game moves (.ofStage (RefusingStage.of stage refuses)) = here
    at followed ⊢
  generalize Session.follow game moves (.ofStage stage) = there at followed ⊢
  cases followed with
  | none => rfl
  | some alike =>
    obtain ⟨scene, rfl⟩ := alike.eq_onto
    rfl

/-- **What playback goes by does not depend on the assets, nor on the sounds that can be heard.** For
every script, every configuration and all moves: two sessions on recording stages whose videos fail
are in the same place and state, with the same timers, whatever assets there are and whatever keys of
sounds fail. -/
theorem assets_do_not_steer (game : Game) (assets assets' : AssetTable) {stage stage' : RecordingStage}
    (refuses : stage.Refuses) (refuses' : stage'.Refuses) (moves : List Move) :
    (Session.follow { game with assets := assets } moves (.ofStage stage)).map Session.bare =
      (Session.follow { game with assets := assets' } moves (.ofStage stage')).map Session.bare := by
  rw [← bare_follow_refusing _ refuses, ← bare_follow_refusing _ refuses']
  exact bare_follow { game with assets := assets } assets' moves rfl (.new _)

/-- a video fails with its asset as it does without, and the line after it comes at the same time -/
theorem line_after_a_video :
    let line : Cue := .dialogue ⟨"Hi", none, false, false⟩
    let game : Game :=
      { script := .ofEvents [.single (.video "clip"), .single (.music .play (some "theme")),
          .single line] }
    let assets : AssetTable := .ofList [("clip", "clip.mp4"), ("theme", "theme.ogg")]
    let stage : RecordingStage := { screen := { videoBehavior := .fails } }
    let stage' : RecordingStage := { stage with sound := { failing := ["theme"] } }
    let moves : List Move := [.start, .runUntil 25 10]
    (Session.follow { game with assets := assets } moves (.ofStage stage)).map Session.bare =
        (Session.follow game moves (.ofStage stage')).map Session.bare ∧
      (Session.follow game moves (.ofStage stage')).any (fun s => s.typing && s.now = 25) ∧
      (Session.follow { game with assets := assets } moves (.ofStage stage)).any
        (fun s => s.musicActive) := by
  intro line game assets stage stage' moves
  refine ⟨?_, by decide +kernel, by decide +kernel⟩
  exact assets_do_not_steer game assets game.assets ⟨rfl, rfl⟩ ⟨rfl, rfl⟩ moves

end VisualNovel
