import VisualNovel.Proofs.Session.Modes
import VisualNovel.Proofs.Stage.Matching
import VisualNovel.Stage.Recording

/-!
# What is staged

Most of what playback does to a recording stage concerns neither the sprites nor the text of the line
that is being revealed. What does is done in a few kinds of steps, to the characters and their sprites
at the same time. So whatever these steps keep holds of every scene that playback brings about.

* `RecordingStage.Quiet`      a stage after calls that concern neither sprites nor text;
* `Operation.Gentle`          what a host may do who leaves sprites and text alone;
* `entrances`                 the names under which characters have entered;
* `Staged`                    the scenes that such steps bring about on a stage;
* `Session.Staged.execute`    cues are made of such steps, and timers and what the player does are;
* `ContinuesWithin.staged`    every scene that operations bring about is made of them.
-/

set_option linter.unusedSectionVars false

namespace VisualNovel

open Session Presentation Audio

/-! ## Quiet calls -/

def Call.isQuiet : Call → Bool
  | .addSprite _ _ | .replaceSprite _ _ | .removeSprite _ | .clearSprites => false
  | .clearText _ | .pushChar _ | .setText _ => false
  | _ => true

namespace RecordingStage

structure Quiet (p q : RecordingStage) : Prop where
  sprites : q.screen.sprites = p.screen.sprites
  lastHandle : q.screen.lastHandle = p.screen.lastHandle
  text : q.screen.text = p.screen.text
  calls : ∃ calls, q.screen.calls.toList = p.screen.calls.toList ++ calls ∧
    ∀ call ∈ calls, call.isQuiet = true

namespace Quiet

theorem of_screen {p q : RecordingStage} (h : q.screen = p.screen) : p.Quiet q := by
  refine ⟨by rw [h], by rw [h], by rw [h], [], ?_, fun _ m => absurd m List.not_mem_nil⟩
  rw [h, List.append_nil]

theorem of_log {p q : RecordingStage} {call : Call} (sprites : q.screen.sprites = p.screen.sprites)
    (lastHandle : q.screen.lastHandle = p.screen.lastHandle)
    (text : q.screen.text = p.screen.text)
    (calls : q.screen.calls = p.screen.calls.push call) (quiet : call.isQuiet = true) :
    p.Quiet q := by
  refine ⟨sprites, lastHandle, text, [call], ?_, fun other m => ?_⟩
  · rw [calls, Array.toList_push]
  · rw [List.mem_singleton.1 m]
    exact quiet

theorem directed (d : Direction) (p : RecordingStage) : p.Quiet (d.on p) := by
  cases d with
  | stopMusic | suspendAudio | resumeAudio => exact .of_screen rfl
  | _ => exact .of_log rfl rfl rfl rfl rfl

theorem videoPlayed (p : RecordingStage) (locator : String) :
    p.Quiet (Presentation.playVideo p locator).2 := by
  simp only [Presentation.playVideo]
  split
  · exact .of_log rfl rfl rfl rfl rfl
  · exact .of_log rfl rfl rfl rfl rfl

theorem soundPlayed (p : RecordingStage) (key locator : String) (volume : Float32) :
    p.Quiet (Audio.playSound p key locator volume).2 :=
  .of_screen rfl

theorem musicPlayed (p : RecordingStage) (key locator : String) (volume : Float32) :
    p.Quiet (Audio.playMusic p key locator volume).2 :=
  .of_screen rfl

end Quiet

end RecordingStage

/-- the host may do anything but change the sprites and the text on stage by itself -/
def Operation.Gentle : Operation RecordingStage → Prop
  | .stage f => ∀ p : RecordingStage, p.Quiet (f p)
  | _ => True

/-! ## Entrances -/

def Deed.entrance? (game : Game) : Deed → Option String
  | .does (.character (some name) .show) | .does (.character (some name) .add) =>
    if game.assets.contains name then some name else none
  | _ => none

/-- the names under which characters have entered, in order -/
def entrances (game : Game) (deeds : List Deed) : List String :=
  deeds.filterMap (Deed.entrance? game)

@[simp] theorem entrances_append (game : Game) (deeds deeds' : List Deed) :
    entrances game (deeds ++ deeds') = entrances game deeds ++ entrances game deeds' :=
  List.filterMap_append

theorem entrances_cons_of_none {game : Game} {deed : Deed} (none : deed.entrance? game = none)
    (deeds : List Deed) : entrances game (deed :: deeds) = entrances game deeds :=
  List.filterMap_cons_none none

theorem entrance_of_ne_hide (game : Game) (name : String) {action : CastAction}
    (hide : action ≠ .hide) :
    (Deed.does (.character (some name) action)).entrance? game =
      if game.assets.contains name then some name else none := by
  cases action with
  | hide => exact absurd rfl hide
  | _ => rfl

/-! ## Scenes -/

/-- the scenes that are brought about on a stage in steps, with what is being revealed and the names
of the characters that have entered -/
inductive Staged (game : Game) (stage : RecordingStage) :
    List String → LineReveal → Scene RecordingStage → Prop
  | new : Staged game stage [] .idle { stage }
  | quiet {names : List String} {r : LineReveal} {a b : Scene RecordingStage}
      (cast : b.cast = a.cast) (quiet : a.stage.Quiet b.stage) (h : Staged game stage names r a) :
      Staged game stage names r b
  | cleared {names : List String} {r : LineReveal} {a : Scene RecordingStage}
      (h : Staged game stage names r a) : Staged game stage names r a.clear
  | entered {names : List String} {r : LineReveal} {a : Scene RecordingStage} {name locator : String}
      (found : game.assets.get? name = some locator) (shown : a.spritesHidden = false)
      (h : Staged game stage names r a) :
      Staged game stage (names ++ [name]) r (a.enter name locator)
  | left {names : List String} {r : LineReveal} {a : Scene RecordingStage} {actor : Actor}
      {before after : List Actor} (split : a.cast = before ++ actor :: after)
      (h : Staged game stage names r a) :
      Staged game stage names r
        { a with stage := removeSprite a.stage actor.handle, cast := before ++ after }
  /-- a line begins once the line before is done -/
  | begun {names : List String} {r : LineReveal} {a : Scene RecordingStage} (line : Line)
      (style : TextStyle) (done : r.isRevealing = false) (h : Staged game stage names r a) :
      Staged game stage names (.revealing line 0) (a.onStage (clearText · style))
  | pushed {names : List String} {line : Line} {n : Nat} {c : Char} {a : Scene RecordingStage}
      (next : line.text.toList[n]? = some c) (h : Staged game stage names (.revealing line n) a) :
      Staged game stage names (.revealing line (n + 1)) (a.onStage (pushChar · c))
  | filled {names : List String} {line : Line} {n : Nat} {a : Scene RecordingStage}
      (h : Staged game stage names (.revealing line n) a) :
      Staged game stage names (.revealing line line.text.toList.length)
        (a.onStage (setText · line.text))
  | talked {names : List String} {line : Line} {n : Nat} {a : Scene RecordingStage}
      (h : Staged game stage names (.revealing line n) a) :
      Staged game stage names (.revealing line n) (LineReveal.talk game line true a)
  | completed {names : List String} {line : Line} {n : Nat} {a : Scene RecordingStage}
      (last : line.text.toList[n]? = none) (h : Staged game stage names (.revealing line n) a) :
      Staged game stage names (.done line) (LineReveal.talk game line false a)

namespace Staged

variable {game : Game} {stage : RecordingStage} {names : List String} {r : LineReveal}
  {a : Scene RecordingStage}

theorem restage {p : RecordingStage} (quiet : a.stage.Quiet p) (h : Staged game stage names r a) :
    Staged game stage names r { a with stage := p } :=
  .quiet (a := a) rfl quiet h

theorem direct (h : Staged game stage names r a) (d : Direction) :
    Staged game stage names r (a.onStage d.on) :=
  h.restage (.directed d a.stage)

theorem enter {name locator : String} (found : game.assets.get? name = some locator)
    (h : Staged game stage names r a) :
    Staged game stage (names ++ [name]) r (a.enter name locator) := by
  cases shown : a.spritesHidden with
  | false => exact .entered found shown h
  | true =>
    have seen : Staged game stage names r a.unhide := by
      simp only [Scene.unhide, shown, if_true]
      refine .quiet (a := a) rfl ?_ h
      exact .directed (.spritesVisible true) a.stage
    have entered := seen.entered found (by simp [Scene.unhide, shown])
    have again : a.unhide.enter name locator = a.enter name locator := by
      simp [Scene.enter, Scene.unhide, shown]
    rw [← again]
    exact entered

theorem leave (suffix name : String) (h : Staged game stage names r a) :
    Staged game stage names r (a.leave suffix name) := by
  unfold Scene.leave
  cases found : a.cast.find? (Scene.answersTo suffix name) with
  | none => exact h
  | some actor =>
    obtain ⟨before, after, split, rest⟩ := Scene.split_of_find? found
    dsimp only
    rw [rest]
    exact .left split h

theorem begin (line : Line) (done : r.isRevealing = false) (h : Staged game stage names r a) :
    Staged game stage names (LineReveal.begin line a).1 (LineReveal.begin line a).2 :=
  ((h.direct (.continueIndicator false)).begun line _ done).direct (.speaker line.speaker)

theorem playBlip (speaker : Option String) (h : Staged game stage names r a) :
    Staged game stage names r (LineReveal.playBlip game speaker a) := by
  unfold LineReveal.playBlip
  dsimp only
  split
  · exact h.restage (.soundPlayed a.stage _ _ _)
  · exact h

theorem voice {line : Line} {n : Nat} {c : Char} (next : line.text.toList[n]? = some c)
    (h : Staged game stage names (.revealing line n) a) :
    Staged game stage names (.revealing line (n + 1))
      (LineReveal.voice game line c (a.onStage (pushChar · c))) := by
  have pushed := h.pushed next
  unfold LineReveal.voice
  split
  · exact (pushed.playBlip line.speaker).talked
  · exact pushed

theorem tick (h : Staged game stage names r a) :
    Staged game stage names (LineReveal.tick game r a).2.1 (LineReveal.tick game r a).2.2 := by
  unfold LineReveal.tick
  split
  · rename_i line n
    cases next : line.text.toList[n]? with
    | none =>
      have completed := h.completed next
      simp only [LineReveal.complete, LineReveal.finish]
      split
      · exact completed
      · exact completed.direct (.continueIndicator true)
    | some c => exact h.voice next
  · exact h

theorem skip (h : Staged game stage names r a) :
    Staged game stage names (LineReveal.skip game r a).2.1 (LineReveal.skip game r a).2.2 := by
  unfold LineReveal.skip
  split
  · rename_i line n
    have completed := h.filled.completed (List.getElem?_eq_none_iff.2 (Nat.le_refl _))
    simp only [LineReveal.complete, LineReveal.finish]
    split
    · exact completed
    · exact completed.direct (.continueIndicator true)
  · exact h

end Staged

/-! ## Cues -/

namespace Session

/-- the scene of a session has been brought about in such steps -/
def Staged (game : Game) (stage : RecordingStage) (names : List String)
    (s : Session RecordingStage) : Prop :=
  VisualNovel.Staged game stage names s.reveal s.scene

namespace Staged

variable {game : Game} {stage : RecordingStage} {names : List String} {s : Session RecordingStage}

theorem direct (h : s.Staged game stage names) (d : Direction) :
    (s.onStage d.on).Staged game stage names :=
  VisualNovel.Staged.direct h d

theorem showBackground (h : s.Staged game stage names) (name : String) :
    (s.showBackground game name).Staged game stage names := by
  unfold Session.showBackground
  split
  · exact (h.direct (.background none)).direct (.desk none)
  · split
    · exact h.direct (.background _)
    · exact h

theorem clearCast (h : s.Staged game stage names) : s.clearCast.Staged game stage names :=
  VisualNovel.Staged.cleared h

theorem showView (h : s.Staged game stage names) (name : String) :
    (s.showView game name).Staged game stage names := by
  unfold Session.showView
  split
  · exact (h.clearCast.showBackground _).direct (.desk _)
  · exact h

theorem enter {name locator : String} (h : s.Staged game stage names)
    (found : game.assets.get? name = some locator) :
    Staged game stage (names ++ [name]) { s with scene := s.scene.enter name locator } :=
  VisualNovel.Staged.enter found h

theorem moveCharacter (h : s.Staged game stage names) (name : Option String) (action : CastAction) :
    (s.moveCharacter game name action).Staged game stage
      (names ++ entrances game [.does (.character name action)]) := by
  have none (quiet : entrances game [.does (.character name action)] = []) :
      names ++ entrances game [.does (.character name action)] = names := by
    rw [quiet, List.append_nil]
  unfold Session.moveCharacter
  split
  · rw [none rfl]
    exact VisualNovel.Staged.leave _ _ h
  · rw [none rfl]
    exact h.clearCast
  · rw [none (by cases action <;> rfl)]
    exact h
  · rename_i name hide
    have entrance := entrance_of_ne_hide game name hide
    dsimp only
    cases found : game.assets.get? name with
    | some locator =>
      have present : game.assets.contains name = true := by rw [Table.contains, found, Option.isSome_some]
      rw [present, if_pos rfl] at entrance
      rw [entrances, List.filterMap_cons_some entrance]
      dsimp only
      split
      · exact h.clearCast.enter found
      · exact h.enter found
    | none =>
      have absent : game.assets.contains name = false := by rw [Table.contains, found, Option.isSome_none]
      rw [absent, if_neg Bool.false_ne_true] at entrance
      rw [none (entrances_cons_of_none entrance [])]
      exact h

theorem restage {p : RecordingStage} (h : s.Staged game stage names) (quiet : s.stage.Quiet p) :
    Staged game stage names { s with scene := { s.scene with stage := p } } :=
  VisualNovel.Staged.restage quiet h

theorem playSound (h : s.Staged game stage names) (name : String) (volume : Float32) :
    (s.playSound game name volume).Staged game stage names := by
  unfold Session.playSound
  dsimp only
  split
  · exact h.restage (.soundPlayed s.stage _ _ _)
  · exact h

theorem stopMusic (h : s.Staged game stage names) : s.stopMusic.Staged game stage names := by
  unfold Session.stopMusic
  dsimp only
  split
  · exact h.direct .stopMusic
  · exact h

theorem playMusic (h : s.Staged game stage names) (name : String) :
    (s.playMusic game name).Staged game stage names := by
  unfold Session.playMusic
  dsimp only
  split
  · split
    · exact h.direct .resumeAudio
    · exact h
  · split
    · exact h.stopMusic.restage (.musicPlayed s.stopMusic.stage _ _ _)
    · exact h.stopMusic

theorem music (h : s.Staged game stage names) (action : MusicAction) (name : Option String) :
    (s.music game action name).Staged game stage names := by
  unfold Session.music
  split
  · exact h.playMusic _
  · exact h
  · exact h.direct .suspendAudio
  · exact h.direct .resumeAudio
  · exact h.stopMusic

theorem showLine (h : s.Staged game stage names) (done : s.reveal.isRevealing = false)
    (line : Line) : (s.showLine game line).Staged game stage names :=
  VisualNovel.Staged.begin line done ((h.direct (.textbox true)).direct
    (.layer (if s.introMode then .video else .background)))

theorem stepCard (h : s.Staged game stage names) : (s.stepCard game).Staged game stage names := by
  unfold Session.stepCard
  split
  · exact h
  · rename_i card _
    have newLine (needed : Bool) (card : CardReveal) : Staged game stage names
        (if needed then { s with card := some card }.onStage cardNewLine
          else { s with card := some card }) := by
      cases needed with
      | true => exact h.direct .cardNewLine
      | false => exact h
    dsimp only
    split
    · rename_i needed c rest _
      exact ((newLine needed rest).direct (.cardChar c)).playSound _ _
    · rename_i needed rest _
      exact newLine needed rest
    · exact h

theorem beginCard (h : s.Staged game stage names) (lines : List String) :
    (s.beginCard game lines).Staged game stage names :=
  stepCard (s := { ({ s with
      typing := true, introMode := true, waitingForInput := false }.suspend .introCard).onStage fun p =>
        Presentation.showCard (Presentation.showTextbox p false) true with
      cardShown := true, card := some (.ofLines lines) })
    ((h.direct (.textbox false)).direct (.card true))

theorem playVideo (h : s.Staged game stage names) (name : String) :
    (s.playVideo game name).Staged game stage names := by
  have front := h.direct (.layer .video)
  unfold Session.playVideo
  dsimp only
  split
  · exact h
  · rename_i locator _
    have played := front.restage (.videoPlayed (setLayer s.scene.stage .video) locator)
    split
    · exact played
    · exact played

theorem waitForVideo (h : s.Staged game stage names) (seconds : Float) :
    (s.waitForVideo game seconds).Staged game stage names := by
  unfold Session.waitForVideo
  dsimp only
  split
  · exact h
  · exact h

theorem jump (h : s.Staged game stage names) (target : String) :
    (s.jump game target).Staged game stage names := by
  unfold Session.jump
  split
  · exact h
  · exact h

theorem openChoice (h : s.Staged game stage names) (options : List ChoiceOption) :
    (s.openChoice options).2.Staged game stage names := by
  unfold Session.openChoice
  split
  · exact h
  · exact h.direct (.choices _)

theorem execute (h : s.Staged game stage names) (cue : Cue)
    (done : ∀ line, cue = .dialogue line → s.reveal.isRevealing = false) :
    (s.execute game cue).2.Staged game stage (names ++ entrances game [.does cue]) := by
  have none (quiet : entrances game [.does cue] = []) :
      names ++ entrances game [.does cue] = names := by
    rw [quiet, List.append_nil]
  cases cue with
  | character name action => exact h.moveCharacter name action
  | dialogue line =>
    rw [none rfl]
    exact h.showLine (done line rfl) line
  | background name =>
    rw [none rfl]
    exact h.showBackground name
  | view name =>
    rw [none rfl]
    exact h.showView name
  | music action name =>
    rw [none rfl]
    exact h.music action name
  | sound name =>
    rw [none rfl]
    exact h.playSound name _
  | video name =>
    rw [none rfl]
    exact h.playVideo name
  | waitVideo seconds =>
    rw [none rfl]
    exact h.waitForVideo seconds
  | introEnd =>
    rw [none rfl]
    exact (h.direct .stopVideo).direct (.layer .background)
  | introCard lines =>
    rw [none rfl]
    exact h.beginCard lines
  | sequence frames fps keepLast =>
    rw [none rfl]
    exact h.clearCast
  | jump target =>
    rw [none rfl]
    exact h.jump target
  | choice options =>
    rw [none rfl]
    exact h.openChoice options
  | wait | introStart | label | unknown =>
    rw [none rfl]
    exact h

/-! ## Turns -/

/-- a session that may carry out a line has shown the one before -/
theorem done_of_held {cue : Cue} (inMode : s.InMode) (held : s.isBusy = true → cue.suspends = false) :
    ∀ line, cue = .dialogue line → s.reveal.isRevealing = false := by
  rintro line rfl
  have free : s.isBusy = false := by
    rw [Bool.eq_false_iff]
    intro busy
    cases held busy
  exact (nothing_of_free inMode (suspension_of_free free)).2.1

theorem together (h : s.Staged game stage names) (inMode : s.InMode) (cues : List Cue) :
    (s.together game cues).Staged game stage (names ++ entrances game (s.togetherDeeds game cues)) := by
  induction cues generalizing s names with
  | nil =>
    rw [togetherDeeds, entrances, List.filterMap_nil, List.append_nil]
    exact h
  | cons cue cues ih =>
    simp only [Session.together, togetherDeeds]
    split
    · rw [entrances, List.filterMap_nil, List.append_nil]
      exact h
    · rename_i held
      have held : s.isBusy = true → cue.suspends = false := by simpa using held
      have rest := ih (h.execute cue (done_of_held inMode held)) (inMode_execute game cue held inMode)
      rw [List.append_assoc, ← entrances_append, List.singleton_append] at rest
      exact rest

theorem turn (h : s.Staged game stage names) (inMode : s.InMode) :
    (s.turn game).session.Staged game stage (names ++ entrances game (s.turnDeeds game)) := by
  have turned := turn_turned game s
  generalize s.turnDeeds game = deeds at turned ⊢
  generalize s.turn game = turn at turned ⊢
  have takes (place : Nat) (deeds : List Deed) :
      entrances game (.takes place :: deeds) = entrances game deeds := entrances_cons_of_none rfl deeds
  cases turned with
  | busy | ended =>
    rw [entrances, List.filterMap_nil, List.append_nil]
    exact h
  | @deferred cue cues free held =>
    rw [Turn.session_ofFlow]
    exact execute (s := { s with deferred := cues }) h cue
      (done_of_held inMode fun busy => absurd (free.symm.trans busy) nofun)
  | @single cue free held next =>
    rw [Turn.session_ofFlow, takes]
    exact execute (s := { s with position := s.position + 1 }) h cue
      (done_of_held inMode fun busy => absurd (free.symm.trans busy) nofun)
  | @together cues free held next =>
    rw [Turn.session_goesOn, takes]
    exact together (s := { s with position := s.position + 1 }) h inMode cues

/-! ## Timers and the player -/

theorem completeLine (h : s.Staged game stage names) (completion : Completion) :
    (s.completeLine game completion).Staged game stage names := by
  cases completion with
  | autoAdvance => exact h
  | waitForInput => exact h

theorem typeTick (h : s.Staged game stage names) : (s.typeTick game).Staged game stage names := by
  have further := VisualNovel.Staged.tick h
  unfold Session.typeTick
  split
  · split
    · rename_i completion reveal scene e
      rw [e] at further
      exact completeLine (s := { s with reveal := reveal, scene := scene }) further completion
    · rename_i reveal scene e
      rw [e] at further
      exact further
  · exact h

theorem nextFrame (h : s.Staged game stage names) :
    (s.nextFrame game).session.Staged game stage names := by
  unfold Session.nextFrame
  split
  · exact h
  · dsimp only
    split
    · exact h.direct (.background _)
    · exact h
  · dsimp only
    split
    · exact h
    · refine .quiet (a := s.scene) rfl ?_ h
      exact .directed (.spritesVisible false) s.stage

theorem pollVideo (h : s.Staged game stage names) :
    (s.pollVideo game).session.Staged game stage names := by
  unfold Session.pollVideo
  split
  · split
    · exact h
    · exact h
  · exact h

theorem checkVideo (h : s.Staged game stage names) : s.checkVideo.Staged game stage names := by
  unfold Session.checkVideo
  split
  · exact h
  · exact h

theorem fire (h : s.Staged game stage names) (kind : TimerKind) :
    (s.fire game kind).session.Staged game stage names := by
  cases kind with
  | advance => exact h
  | typeTick => exact h.typeTick
  | cardTick => exact h.stepCard
  | frame => exact h.nextFrame
  | videoPoll => exact h.pollVideo
  | videoCheck => exact h.checkVideo

theorem opened (h : s.Staged game stage names) :
    (s.opened game).session.Staged game stage names := by
  unfold Session.opened
  split
  · exact h
  · exact (h.direct (.preload game.assets.images)).direct .resumeAudio

theorem pressed (h : s.Staged game stage names) :
    (s.pressed game).session.Staged game stage names := by
  have shown := VisualNovel.Staged.skip h
  unfold Session.pressed
  split
  · exact h
  split
  · dsimp only
    split
    · exact (h.direct (.card false)).direct (.continueIndicator false)
    · exact h.direct (.continueIndicator false)
  split
  · split
    · rename_i completion reveal scene e
      rw [e] at shown
      exact completeLine (s := { s with reveal := reveal, scene := scene }) shown completion
    · rename_i reveal scene e
      rw [e] at shown
      exact shown
  · exact h

theorem chosen (h : s.Staged game stage names) (index : Nat) :
    (s.chosen game index).session.Staged game stage names := by
  unfold Session.chosen
  split
  · split
    · dsimp only
      split
      · exact jump (s := (s.onStage hideChoices).resume) (h.direct .hideChoices) _
      · exact h.direct .hideChoices
    · exact h
  · exact h

end Staged

end Session

/-! ## Playback -/

theorem staged_keeps (game : Game) (stage : RecordingStage) :
    Keeps game Operation.Gentle fun deeds turn => Reaches game (.ofStage stage) deeds turn ∧
      turn.session.Staged game stage (entrances game deeds) where
  turn {deeds s} started h := by
    obtain ⟨reached, staged⟩ := h
    refine ⟨reached.turn started, ?_⟩
    rw [entrances_append]
    exact staged.turn (reached.inMode (inStep_new stage) (inMode_new stage))
  idle idle h := ⟨h.1.idle idle, h.2⟩
  fired {deeds s _ timer timers} due live h := by
    obtain ⟨reached, staged⟩ := h
    refine ⟨reached.fired due live, ?_⟩
    rw [entrances_append, entrances_cons_of_none rfl, entrances, entrances, List.filterMap_nil,
      List.append_nil]
    exact Session.Staged.fire (s := { s with timers := timers }) staged timer.kind
  dropped due stale h := ⟨h.1.dropped due stale, h.2⟩
  clock le nothing h := ⟨h.1.clock le nothing, h.2⟩
  opened h := ⟨h.1.opened, h.2.opened⟩
  pressed _ started h := ⟨h.1.pressed started, h.2.pressed⟩
  chosen index h := ⟨h.1.chosen index, h.2.chosen index⟩
  advanced _ started h := ⟨h.1.advanced started, h.2⟩
  stage {_ s f} gentle h := ⟨h.1.stage f, h.2.restage (gentle s.stage)⟩

/-- **Every scene that operations bring about on a recording stage is made in such steps.** -/
theorem ContinuesWithin.staged {game : Game} {stage : RecordingStage} {deeds : List Deed}
    {s : Session RecordingStage}
    (h : ContinuesWithin Operation.Gentle game (.ofStage stage) deeds s) :
    Staged game stage (entrances game deeds) s.reveal s.scene :=
  (h.keeps (staged_keeps game stage) ⟨.refl, .new⟩).2

end VisualNovel
