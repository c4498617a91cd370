import VisualNovel.Proofs.Session.Recall
import VisualNovel.Proofs.Stage.Sprites
import VisualNovel.Proofs.Stage.Staged

/-!
# Who comes, and what switches the sprites off and on

The sprites are switched off at the end of a sequence, and on again by whoever enters next. Nothing else
touches the switch, and but for an entrance an empty stage stays empty.

* `Scene.NobodyComes`              the switch is as before, and an empty stage has stayed empty;
* `Session.NobodyComes.execute`, `execute_of_entrance`   cues, by whether somebody enters;
* `Session.Hides`                  the timer that ends a sequence without its last picture;
* `Session.NobodyComes.fire`, `fire_of_hides`            timers, by whether they end such a sequence;
* `Session.Step.comes`             single steps: nobody comes, somebody enters, or the sprites go off.
-/

set_option linter.unusedSectionVars false

namespace VisualNovel

open Presentation Audio

variable {σ : Type} [Presentation σ] [Audio σ]

/-! ## Scenes -/

/-- from one scene to another, the sprites are neither switched on nor off, and if nobody was on stage
then nobody is -/
structure Scene.NobodyComes (a b : Scene σ) : Prop where
  hidden : b.spritesHidden = a.spritesHidden
  empty : a.cast = [] → b.cast = []

namespace Scene.NobodyComes

variable {game : Game} {a b c : Scene σ}

theorem refl (a : Scene σ) : a.NobodyComes a := ⟨rfl, id⟩

theorem trans (h : a.NobodyComes b) (h' : b.NobodyComes c) : a.NobodyComes c :=
  ⟨h'.hidden.trans h.hidden, fun empty => h'.empty (h.empty empty)⟩

theorem restage (a : Scene σ) (p : σ) : a.NobodyComes { a with stage := p } := ⟨rfl, id⟩

theorem clear (a : Scene σ) : a.NobodyComes a.clear := ⟨rfl, fun _ => rfl⟩

theorem leave (suffix name : String) (a : Scene σ) : a.NobodyComes (a.leave suffix name) := by
  unfold Scene.leave
  split
  · refine ⟨rfl, fun empty => ?_⟩
    dsimp only
    rw [empty, List.eraseP_nil]
  · exact refl a

theorem talk (line : Line) (talking : Bool) (a : Scene σ) :
    a.NobodyComes (LineReveal.talk game line talking a) := by
  rw [talk_eq]
  refine ⟨rfl, fun empty => ?_⟩
  dsimp only
  rw [empty, List.map_nil]

theorem playBlip (speaker : Option String) (a : Scene σ) :
    a.NobodyComes (LineReveal.playBlip game speaker a) := by
  unfold LineReveal.playBlip
  dsimp only
  split
  · exact restage a _
  · exact refl a

theorem voice (line : Line) (c : Char) (a : Scene σ) :
    a.NobodyComes (LineReveal.voice game line c a) := by
  unfold LineReveal.voice
  split
  · exact (playBlip line.speaker a).trans (talk line true _)
  · exact refl a

theorem finish (line : Line) (a : Scene σ) : a.NobodyComes (LineReveal.finish game line a).2 := by
  have talked : a.NobodyComes (LineReveal.talk game line false a) := talk line false a
  simp only [LineReveal.finish]
  split
  · exact talked
  · exact talked.trans (restage _ _)

theorem tick (r : LineReveal) (a : Scene σ) : a.NobodyComes (LineReveal.tick game r a).2.2 := by
  unfold LineReveal.tick
  split
  · split
    · exact finish _ a
    · exact (restage a _).trans (voice _ _ _)
  · exact refl a

theorem skip (r : LineReveal) (a : Scene σ) : a.NobodyComes (LineReveal.skip game r a).2.2 := by
  unfold LineReveal.skip
  split
  · exact (restage a _).trans (finish _ _)
  · exact refl a

end Scene.NobodyComes

/-! ## Cues -/

namespace Session

def NobodyComes (s s' : Session σ) : Prop := s.scene.NobodyComes s'.scene

namespace NobodyComes

variable {game : Game} {s s' s'' : Session σ}

theorem refl (s : Session σ) : s.NobodyComes s := Scene.NobodyComes.refl s.scene

theorem trans (h : s.NobodyComes s') (h' : s'.NobodyComes s'') : s.NobodyComes s'' :=
  Scene.NobodyComes.trans h h'

theorem direct (f : σ → σ) (s : Session σ) : s.NobodyComes (s.onStage f) := .restage s.scene _

theorem clearCast (s : Session σ) : s.NobodyComes s.clearCast := .clear s.scene

theorem showBackground (name : String) (s : Session σ) :
    s.NobodyComes (s.showBackground game name) := by
  unfold Session.showBackground
  split
  · exact direct _ s
  · split
    · exact direct _ s
    · exact refl s

theorem showView (name : String) (s : Session σ) : s.NobodyComes (s.showView game name) := by
  unfold Session.showView
  split
  · exact ((clearCast s).trans (showBackground _ _)).trans (direct _ _)
  · exact refl s

theorem moveCharacter {name : Option String} {action : CastAction}
    (none : (Deed.does (.character name action)).entrance? game = none) (s : Session σ) :
    s.NobodyComes (s.moveCharacter game name action) := by
  unfold Session.moveCharacter
  split
  · exact .leave _ _ s.scene
  · exact clearCast s
  · exact refl s
  · rename_i name hide
    rw [entrance_of_ne_hide game name hide] at none
    split
    · rename_i locator found
      have present : game.assets.contains name = true := by
        rw [Table.contains, found, Option.isSome_some]
      rw [present, if_pos rfl] at none
      cases none
    · exact refl s

theorem playSound (name : String) (volume : Float32) (s : Session σ) :
    s.NobodyComes (s.playSound game name volume) := by
  unfold Session.playSound
  dsimp only
  split
  · exact direct _ s
  · exact refl s

theorem stopMusic (s : Session σ) : s.NobodyComes s.stopMusic := by
  unfold Session.stopMusic
  dsimp only
  split
  · exact direct Audio.stopMusic s
  · exact refl s

theorem music (action : MusicAction) (name : Option String) (s : Session σ) :
    s.NobodyComes (s.music game action name) := by
  unfold Session.music
  split
  · unfold Session.playMusic
    dsimp only
    split
    · split
      · exact direct _ s
      · exact refl s
    · split
      · exact (stopMusic s).trans (.restage _ _)
      · exact stopMusic s
  · exact refl s
  · exact direct _ s
  · exact direct _ s
  · exact stopMusic s

theorem stepCard (s : Session σ) : s.NobodyComes (s.stepCard game) := by
  unfold Session.stepCard
  split
  · exact refl s
  · rename_i card _
    have newLine (needed : Bool) (card : CardReveal) : s.NobodyComes
        (if needed then { s with card := some card }.onStage cardNewLine
          else { s with card := some card }) := by
      cases needed with
      | true => exact direct cardNewLine s
      | false => exact refl s
    dsimp only
    split
    · rename_i needed c rest _
      exact ((newLine needed rest).trans (direct (cardPushChar · c) _)).trans (playSound _ _ _)
    · rename_i needed rest _
      exact newLine needed rest
    · exact refl s

theorem beginCard (lines : List String) (s : Session σ) :
    s.NobodyComes (s.beginCard game lines) := by
  unfold Session.beginCard
  have step (s : Session σ) : s.NobodyComes (s.stepCard game) := stepCard s
  exact (direct (fun p => showCard (showTextbox p false) true) s).trans (step { ({ s with
      typing := true, introMode := true, waitingForInput := false }.suspend .introCard).onStage fun p =>
        showCard (showTextbox p false) true with
      cardShown := true, card := some (.ofLines lines) })

theorem playVideo (name : String) (s : Session σ) : s.NobodyComes (s.playVideo game name) := by
  unfold Session.playVideo
  dsimp only
  split
  · exact refl s
  · split
    · exact .restage s.scene _
    · exact .restage s.scene _

theorem execute {cue : Cue} (none : (Deed.does cue).entrance? game = none) (s : Session σ) :
    s.NobodyComes (s.execute game cue).2 := by
  cases cue with
  | background name => exact showBackground name s
  | view name => exact showView name s
  | music action name => exact music action name s
  | sound name => exact playSound name _ s
  | character name action => exact moveCharacter none s
  | dialogue line => exact .restage s.scene _
  | video name => exact playVideo name s
  | waitVideo seconds =>
    simp only [Session.execute, Session.waitForVideo]
    split
    · exact refl s
    · exact refl s
  | introEnd => exact .restage s.scene _
  | introCard lines => exact beginCard lines s
  | sequence frames fps keepLast => exact clearCast s
  | jump target =>
    simp only [Session.execute, Session.jump]
    split
    · exact refl s
    · exact refl s
  | choice options =>
    cases options with
    | nil => exact refl s
    | cons option options => exact .restage s.scene _
  | wait | introStart | label | unknown => exact refl s

/-! ## Timers and the player -/

theorem completeLine (completion : Completion) (s : Session σ) :
    s.NobodyComes (s.completeLine game completion) := by
  cases completion <;> exact refl s

theorem typeTick (s : Session σ) : s.NobodyComes (s.typeTick game) := by
  have ticked : s.scene.NobodyComes (LineReveal.tick game s.reveal s.scene).2.2 :=
    .tick s.reveal s.scene
  unfold Session.typeTick
  split
  · split
    · rename_i completion reveal scene e
      rw [e] at ticked
      have revealed : s.NobodyComes { s with reveal := reveal, scene := scene } := ticked
      exact revealed.trans (completeLine completion _)
    · rename_i reveal scene e
      rw [e] at ticked
      exact ticked
  · exact refl s

theorem opened (s : Session σ) : s.NobodyComes (s.opened game).session := by
  unfold Session.opened
  split
  · exact refl s
  · exact .restage s.scene _

theorem pressed (s : Session σ) : s.NobodyComes (s.pressed game).session := by
  have skipped : s.scene.NobodyComes (LineReveal.skip game s.reveal s.scene).2.2 :=
    .skip s.reveal s.scene
  unfold Session.pressed
  split
  · exact refl s
  split
  · dsimp only
    split
    · exact .restage s.scene _
    · exact .restage s.scene _
  split
  · split
    · rename_i completion reveal scene e
      rw [e] at skipped
      have revealed : s.NobodyComes { s with reveal := reveal, scene := scene } := skipped
      exact revealed.trans (completeLine completion _)
    · rename_i reveal scene e
      rw [e] at skipped
      exact skipped
  · exact refl s

theorem chosen (index : Nat) (s : Session σ) : s.NobodyComes (s.chosen game index).session := by
  unfold Session.chosen
  split
  · split
    · dsimp only
      split
      · simp only [Session.jump]
        split
        · exact direct hideChoices s
        · exact direct hideChoices s
      · exact direct hideChoices s
    · exact refl s
  · exact refl s

end NobodyComes

def Hides (s : Session σ) (kind : TimerKind) : Prop :=
  kind = .frame ∧ ∃ interval, s.flipbook = some ⟨[], interval, false⟩

section
variable {game : Game} {s : Session σ}

theorem hidden_enter (name locator : String) (a : Scene σ) :
    (a.enter name locator).spritesHidden = false := by
  unfold Scene.enter Scene.unhide
  split
  · rfl
  · exact Bool.eq_false_iff.2 ‹_›

theorem execute_of_entrance {cue : Cue} {name : String}
    (enters : (Deed.does cue).entrance? game = some name) (s : Session σ) :
    (s.execute game cue).2.scene.spritesHidden = false := by
  cases cue with
  | character who action =>
    have hide : action ≠ .hide := by
      rintro rfl
      cases who <;> cases enters
    cases who with
    | none => cases action <;> cases enters
    | some who =>
      rw [entrance_of_ne_hide game who hide] at enters
      split at enters
      · rename_i present
        obtain ⟨locator, found⟩ := Option.isSome_iff_exists.1 present
        simp only [execute, moveCharacter, found]
        cases action with
        | hide => exact absurd rfl hide
        | _ => exact hidden_enter _ _ _
      · cases enters
  | _ => cases enters

theorem NobodyComes.fire {kind : TimerKind} (stays : ¬ s.Hides kind) :
    s.NobodyComes (s.fire game kind).session := by
  cases kind with
  | advance => exact .refl s
  | typeTick => exact .typeTick s
  | cardTick => exact .stepCard s
  | frame =>
    simp only [Session.fire, nextFrame]
    split
    · exact .refl s
    · split
      · exact .restage s.scene _
      · exact .refl s
    · rename_i interval keepLast shown
      split
      · exact .refl s
      · rename_i thrownAway
        refine absurd ⟨rfl, interval, ?_⟩ stays
        rw [shown, Bool.eq_false_iff.2 thrownAway]
  | videoPoll =>
    simp only [Session.fire, pollVideo]
    split
    · split
      · exact .refl s
      · exact .refl s
    · exact .refl s
  | videoCheck =>
    simp only [Session.fire, checkVideo]
    split
    · exact .refl s
    · exact .refl s

theorem fire_of_hides (game : Game) {kind : TimerKind} (hides : s.Hides kind) :
    ∃ stage, s.fire game kind = .goesOn (resume { s with
      flipbook := none
      scene := { s.scene with stage := stage, spritesHidden := true } }) := by
  obtain ⟨rfl, interval, shown⟩ := hides
  simp only [Session.fire, nextFrame, shown]
  exact ⟨_, rfl⟩

theorem Step.comes {s' : Session σ} {more : List (Deed × Session σ)} (step : s.Step game more s') :
    entrances game (more.map Prod.fst) = [] ∧ s.NobodyComes s' ∨
    entrances game (more.map Prod.fst) ≠ [] ∧ s'.scene.spritesHidden = false ∨
    ∃ limit timer timers, s.timers.popDue? limit = some (timer, timers) ∧
      isLive { s with timers := timers } timer ∧ more = [(.fires timer, { s with timers := timers })] ∧
      s.Hides timer.kind ∧ s'.suspension = none ∧ s'.scene.spritesHidden = true ∧
      s'.scene.cast = s.scene.cast := by
  cases step with
  | takes | unholds | holds | drops | clock => exact .inl ⟨rfl, Scene.NobodyComes.refl s.scene⟩
  | stage => exact .inl ⟨rfl, .direct _ s⟩
  | opens => exact .inl ⟨rfl, .opened s⟩
  | presses => exact .inl ⟨rfl, .pressed s⟩
  | chooses index => exact .inl ⟨rfl, .chosen index s⟩
  | does cue may =>
    cases enters : (Deed.does cue).entrance? game with
    | none => exact .inl ⟨entrances_cons_of_none enters [], .execute enters s⟩
    | some name =>
      refine .inr (.inl ⟨?_, execute_of_entrance enters s⟩)
      rw [List.map_singleton, entrances, List.filterMap_cons_some enters]
      exact List.cons_ne_nil _ _
  | @fires _ limit timer timers due live =>
    by_cases hides : ({ s with timers := timers } : Session σ).Hides timer.kind
    · obtain ⟨stage, e⟩ := fire_of_hides game hides
      rw [e]
      exact .inr (.inr ⟨limit, timer, timers, due, live, rfl, hides, rfl, rfl, rfl⟩)
    · exact .inl ⟨rfl, NobodyComes.fire (s := { s with timers := timers }) hides⟩

end

end Session

end VisualNovel
