import VisualNovel.Proofs.Session.Patience
import VisualNovel.Proofs.Stage.Parallel
import VisualNovel.Proofs.Stage.Sprites
import VisualNovel.Session.Snapshot

/-!
# What stands over the pictures

A menu, the text of a line, a card and the sign that playback can go on are put over the pictures by
single calls, and taken away by others. A session never looks at what is there. Still, as long as
playback goes on by the session, its timers and the player alone, a recording stage shows what the state
of the session calls for.

* `Overlays`             the menu, the text, the card and the sign on a recording stage;
* `Scene.Overlaid`       a scene that shows some overlays;
* `Cue.overlay`          what a cue makes of them, by itself;
* `Session.Overlaid.execute`, `Session.Overlaid.fire`, `Session.Overlaid.chosen`   what steps make of them;
* `Session.overlays`     the overlays that the state of a session calls for;
* `Turn.Mirrored`        they are the ones on stage;
* `mirrored_keeps`       playback keeps it so;
* `overlays_mirror_the_session`   what this means for a session that operations bring about.
-/

set_option linter.unusedSectionVars false

namespace VisualNovel

open Session Presentation Audio

/-! ## Stages -/

/-- what is shown over the pictures, but for the sprites -/
structure Overlays where
  choices : List String
  text : String
  cardVisible : Bool
  continueVisible : Bool

def RecordingStage.overlays (p : RecordingStage) : Overlays :=
  ⟨p.screen.choices, p.screen.text, p.screen.cardVisible, p.screen.continueVisible⟩

def Direction.overlay : Direction → Overlays → Overlays
  | .continueIndicator visible, o => { o with continueVisible := visible }
  | .card visible, o => { o with cardVisible := visible }
  | .choices labels, o => { o with choices := labels }
  | .hideChoices, o => { o with choices := [] }
  | _, o => o

theorem overlays_directed (d : Direction) (p : RecordingStage) :
    (d.on p).overlays = d.overlay p.overlays := by
  cases d <;> rfl

theorem overlays_playVideo (p : RecordingStage) (locator : String) :
    (Presentation.playVideo p locator).2.overlays = p.overlays ∧
      (Presentation.playVideo p locator).2.screen.spritesVisible = p.screen.spritesVisible := by
  simp only [Presentation.playVideo]
  split <;> exact ⟨rfl, rfl⟩

def Completion.asks : Completion → Bool
  | autoAdvance => false
  | waitForInput => true

/-- the host may do anything but go on by itself, or change what is shown over the pictures and
whether the sprites are seen -/
def Operation.Discreet : Operation RecordingStage → Prop
  | .advance => False
  | .stage f => ∀ p : RecordingStage,
      (f p).overlays = p.overlays ∧ (f p).screen.spritesVisible = p.screen.spritesVisible
  | _ => True

/-! ## Scenes -/

/-- the overlays of the scene are these, and its sprites are seen unless they are switched off -/
structure Scene.Overlaid (a : Scene RecordingStage) (o : Overlays) : Prop where
  overlays : a.stage.overlays = o
  sprites : a.stage.screen.spritesVisible = !a.spritesHidden

namespace Scene.Overlaid

variable {game : Game} {a : Scene RecordingStage} {o : Overlays}

theorem restage {p : RecordingStage} (f : Overlays → Overlays) (h : a.Overlaid o)
    (shown : p.overlays = f a.stage.overlays)
    (seen : p.screen.spritesVisible = a.stage.screen.spritesVisible) :
    Scene.Overlaid { a with stage := p } (f o) :=
  ⟨by rw [shown, h.overlays], seen.trans h.sprites⟩

theorem direct (h : a.Overlaid o) (d : Direction)
    (seen : (d.on a.stage).screen.spritesVisible = a.stage.screen.spritesVisible) :
    (a.onStage d.on).Overlaid (d.overlay o) :=
  h.restage d.overlay (overlays_directed d a.stage) seen

theorem clear (h : a.Overlaid o) : a.clear.Overlaid o := ⟨h.overlays, h.sprites⟩

theorem enter (h : a.Overlaid o) (name locator : String) : (a.enter name locator).Overlaid o := by
  unfold Scene.enter Scene.unhide
  split
  · exact ⟨h.overlays, rfl⟩
  · exact ⟨h.overlays, h.sprites⟩

theorem leave (h : a.Overlaid o) (suffix name : String) : (a.leave suffix name).Overlaid o := by
  unfold Scene.leave
  split
  · exact ⟨h.overlays, h.sprites⟩
  · exact h

theorem talk (game : Game) (h : a.Overlaid o) (line : Line) (talking : Bool) :
    (LineReveal.talk game line talking a).Overlaid o := by
  obtain ⟨sprites, calls, e⟩ := switchSprites_eq game line talking a.cast a.stage
  rw [talk_eq, e]
  exact ⟨h.overlays, h.sprites⟩

theorem playBlip (h : a.Overlaid o) (speaker : Option String) :
    (LineReveal.playBlip game speaker a).Overlaid o := by
  unfold LineReveal.playBlip
  dsimp only
  split
  · exact ⟨h.overlays, h.sprites⟩
  · exact h

theorem voice (h : a.Overlaid o) (line : Line) (c : Char) :
    (LineReveal.voice game line c a).Overlaid o := by
  unfold LineReveal.voice
  split
  · exact (h.playBlip line.speaker).talk game line true
  · exact h

theorem begin (h : a.Overlaid o) (line : Line) :
    (LineReveal.begin line a).2.Overlaid { o with text := "", continueVisible := false } := by
  have cleared := (h.direct (.continueIndicator false) rfl).restage
    (p := clearText (showContinue a.stage false) (if line.thought then .thought else .spoken))
    (fun o => { o with text := "" }) rfl rfl
  exact cleared.direct (.speaker line.speaker) rfl

theorem finish (h : a.Overlaid o) (silent : o.continueVisible = false) (line : Line) :
    (LineReveal.finish game line a).2.Overlaid
      { o with continueVisible := Completion.asks (LineReveal.finish game line a).1 } := by
  obtain ⟨choices, text, card, _⟩ := o
  cases silent
  have talked := h.talk game line false
  simp only [LineReveal.finish]
  split
  · exact talked
  · exact talked.direct (.continueIndicator true) rfl

end Scene.Overlaid

/-! ## Lines -/

namespace LineReveal

def line? : LineReveal → Option Line
  | idle => none
  | revealing line _ => some line
  | done line => some line

def text (r : LineReveal) : String :=
  String.ofList ((r.line?.elim [] fun line => line.text.toList).take r.shown)

theorem text_revealing (line : Line) (n : Nat) :
    (revealing line n).text = String.ofList (line.text.toList.take n) := rfl

theorem text_done (line : Line) : (done line).text = line.text := by
  show String.ofList (line.text.toList.take line.text.length) = line.text
  rw [← String.length_toList, List.take_length, String.ofList_toList]

end LineReveal

namespace Scene.Overlaid

variable {game : Game} {a : Scene RecordingStage} {o : Overlays} {r : LineReveal}

theorem tick (game : Game) (h : a.Overlaid { o with text := r.text, continueVisible := false }) :
    (LineReveal.tick game r a).2.2.Overlaid
      { o with
        text := (LineReveal.tick game r a).2.1.text
        continueVisible := (LineReveal.tick game r a).1.elim false Completion.asks } := by
  unfold LineReveal.tick
  split
  · rename_i line n
    split
    · rename_i last
      have whole : (LineReveal.revealing line n).text = (LineReveal.done line).text := by
        rw [LineReveal.text_revealing, LineReveal.text_done,
          List.take_of_length_le (List.getElem?_eq_none_iff.1 last), String.ofList_toList]
      rw [whole] at h
      exact h.finish rfl line
    · rename_i c next
      have pushed := h.restage (p := pushChar a.stage c) (fun o => { o with text := o.text.push c })
        rfl rfl
      rw [LineReveal.text_revealing, push_ofList_take next, ← LineReveal.text_revealing] at pushed
      exact pushed.voice line c
  · exact h

theorem skip (game : Game) (h : a.Overlaid { o with text := r.text, continueVisible := false }) :
    (LineReveal.skip game r a).2.2.Overlaid
      { o with
        text := (LineReveal.skip game r a).2.1.text
        continueVisible := (LineReveal.skip game r a).1.elim false Completion.asks } := by
  unfold LineReveal.skip
  split
  · rename_i line n
    have filled := h.restage (p := setText a.stage line.text)
      (fun o => { o with text := (LineReveal.done line).text }) (by rw [LineReveal.text_done]; rfl) rfl
    exact filled.finish rfl line
  · exact h

end Scene.Overlaid

/-! ## Cues -/

def Cue.overlay : Cue → Overlays → Overlays
  | .dialogue _, o => { o with text := "", continueVisible := false }
  | .introCard _, o => { o with cardVisible := true }
  | .choice (option :: options), o =>
    { o with choices := (option :: options).map ChoiceOption.text }
  | _, o => o

theorem overlay_of_not_suspends {cue : Cue} (goesOn : cue.suspends = false) (o : Overlays) :
    cue.overlay o = o := by
  cases cue with
  | dialogue | introCard => cases goesOn
  | choice options =>
    cases options with
    | nil => rfl
    | cons => cases goesOn
  | _ => rfl

namespace Session

def Overlaid (s : Session RecordingStage) (o : Overlays) : Prop := s.scene.Overlaid o

namespace Overlaid

variable {game : Game} {s : Session RecordingStage} {o : Overlays}

theorem direct (h : s.Overlaid o) (d : Direction)
    (seen : (d.on s.stage).screen.spritesVisible = s.stage.screen.spritesVisible) :
    (s.onStage d.on).Overlaid (d.overlay o) :=
  Scene.Overlaid.direct h d seen

theorem showBackground (h : s.Overlaid o) (name : String) :
    (s.showBackground game name).Overlaid o := by
  unfold Session.showBackground
  split
  · exact (h.direct (.background none) rfl).direct (.desk none) rfl
  · split
    · exact h.direct (.background _) rfl
    · exact h

theorem clearCast (h : s.Overlaid o) : s.clearCast.Overlaid o := Scene.Overlaid.clear h

theorem showView (h : s.Overlaid o) (name : String) : (s.showView game name).Overlaid o := by
  unfold Session.showView
  split
  · exact (h.clearCast.showBackground _).direct (.desk _) rfl
  · exact h

theorem moveCharacter (h : s.Overlaid o) (name : Option String) (action : CastAction) :
    (s.moveCharacter game name action).Overlaid o := by
  unfold Session.moveCharacter
  split
  · exact Scene.Overlaid.leave h _ _
  · exact h.clearCast
  · exact h
  · split
    · dsimp only
      split
      · exact Scene.Overlaid.enter h.clearCast _ _
      · exact Scene.Overlaid.enter h _ _
    · exact h

theorem playSound (h : s.Overlaid o) (name : String) (volume : Float32) :
    (s.playSound game name volume).Overlaid o := by
  unfold Session.playSound
  dsimp only
  split
  · exact ⟨h.overlays, h.sprites⟩
  · exact h

theorem stopMusic (h : s.Overlaid o) : s.stopMusic.Overlaid o := by
  unfold Session.stopMusic
  dsimp only
  split
  · exact h.direct .stopMusic rfl
  · exact h

theorem playMusic (h : s.Overlaid o) (name : String) : (s.playMusic game name).Overlaid o := by
  unfold Session.playMusic
  dsimp only
  split
  · split
    · exact h.direct .resumeAudio rfl
    · exact h
  · split
    · exact ⟨h.stopMusic.overlays, h.stopMusic.sprites⟩
    · exact h.stopMusic

theorem music (h : s.Overlaid o) (action : MusicAction) (name : Option String) :
    (s.music game action name).Overlaid o := by
  unfold Session.music
  split
  · exact h.playMusic _
  · exact h
  · exact h.direct .suspendAudio rfl
  · exact h.direct .resumeAudio rfl
  · exact h.stopMusic

theorem showLine (h : s.Overlaid o) (line : Line) :
    (s.showLine game line).Overlaid { o with text := "", continueVisible := false } :=
  Scene.Overlaid.begin ((h.direct (.textbox true) rfl).direct
    (.layer (if s.introMode then .video else .background)) rfl) line

theorem stepCard (h : s.Overlaid o) : (s.stepCard game).Overlaid o := by
  unfold Session.stepCard
  split
  · exact h
  · rename_i card _
    have newLine (needed : Bool) (card : CardReveal) : Session.Overlaid
        (if needed then { s with card := some card }.onStage cardNewLine
          else { s with card := some card }) o := by
      cases needed with
      | true => exact h.direct .cardNewLine rfl
      | false => exact h
    dsimp only
    split
    · rename_i needed c rest _
      exact ((newLine needed rest).direct (.cardChar c) rfl).playSound _ _
    · rename_i needed rest _
      exact newLine needed rest
    · exact h

theorem beginCard (h : s.Overlaid o) (lines : List String) :
    (s.beginCard game lines).Overlaid { o with cardVisible := true } := by
  have shown := (h.direct (.textbox false) rfl).direct (.card true) rfl
  unfold Session.beginCard
  refine stepCard ?_
  exact ⟨shown.overlays, shown.sprites⟩

theorem playVideo (h : s.Overlaid o) (name : String) : (s.playVideo game name).Overlaid o := by
  have front := h.direct (.layer .video) rfl
  unfold Session.playVideo
  dsimp only
  split
  · exact h
  · rename_i locator _
    obtain ⟨shown, seen⟩ := overlays_playVideo (setLayer s.scene.stage .video) locator
    have played := Scene.Overlaid.restage id front shown seen
    split
    · exact played
    · exact played

theorem waitForVideo (h : s.Overlaid o) (seconds : Float) :
    (s.waitForVideo game seconds).Overlaid o := by
  unfold Session.waitForVideo
  dsimp only
  split
  · exact h
  · exact h

theorem jump (h : s.Overlaid o) (target : String) : (s.jump game target).Overlaid o := by
  unfold Session.jump
  split
  · exact h
  · exact h

theorem execute (game : Game) (h : s.Overlaid o) (cue : Cue) :
    (s.execute game cue).2.Overlaid (cue.overlay o) := by
  cases cue with
  | background name => exact h.showBackground name
  | view name => exact h.showView name
  | music action name => exact h.music action name
  | sound name => exact h.playSound name _
  | character name action => exact h.moveCharacter name action
  | dialogue line => exact h.showLine line
  | video name => exact h.playVideo name
  | waitVideo seconds => exact h.waitForVideo seconds
  | introEnd => exact (h.direct .stopVideo rfl).direct (.layer .background) rfl
  | introCard lines => exact h.beginCard lines
  | sequence frames fps keepLast => exact h.clearCast
  | jump target => exact h.jump target
  | choice options =>
    cases options with
    | nil => exact h
    | cons option options => exact h.direct (.choices ((option :: options).map ChoiceOption.text)) rfl
  | wait | introStart | label | unknown => exact h

/-! ## Timers and the player -/

theorem nextFrame (h : s.Overlaid o) : (s.nextFrame game).session.Overlaid o := by
  unfold Session.nextFrame
  split
  · exact h
  · dsimp only
    split
    · exact h.direct (.background _) rfl
    · exact h
  · dsimp only
    split
    · exact h
    · exact ⟨h.overlays, rfl⟩

theorem pollVideo (h : s.Overlaid o) : (s.pollVideo game).session.Overlaid o := by
  unfold Session.pollVideo
  split
  · split
    · exact h
    · exact h
  · exact h

theorem checkVideo (h : s.Overlaid o) : s.checkVideo.Overlaid o := by
  unfold Session.checkVideo
  split
  · exact h
  · exact h

theorem fire (game : Game) {kind : TimerKind} (h : s.Overlaid o) (others : kind ≠ .typeTick) :
    (s.fire game kind).session.Overlaid o := by
  cases kind with
  | advance => exact h
  | typeTick => exact absurd rfl others
  | cardTick => exact h.stepCard
  | frame => exact h.nextFrame
  | videoPoll => exact h.pollVideo
  | videoCheck => exact h.checkVideo

theorem opened (game : Game) (h : s.Overlaid o) : (s.opened game).session.Overlaid o := by
  unfold Session.opened
  split
  · exact h
  · exact (h.direct (.preload game.assets.images) rfl).direct .resumeAudio rfl

theorem chosen (game : Game) (index : Nat) (h : s.Overlaid o) :
    s.chosen game index = .rests s ∨
      (s.chosen game index).session.Overlaid { o with choices := [] } := by
  unfold Session.chosen
  split
  · split
    · right
      dsimp only
      split
      · exact jump (s := (s.onStage hideChoices).resume) (h.direct .hideChoices rfl) _
      · exact h.direct .hideChoices rfl
    · exact .inl rfl
  · exact .inl rfl

end Overlaid

end Session

/-! ## The line begun last -/

section
variable {σ : Type} [Presentation σ] [Audio σ] {game : Game}

theorem line_execute (cue : Cue) (s : Session σ) :
    (s.execute game cue).2.reveal.line? = (linesIn [.does cue]).getLast?.or s.reveal.line? := by
  have outcome := execute_outcome game cue s
  generalize (s.execute game cue).1 = flow at outcome
  generalize (s.execute game cue).2 = s' at outcome ⊢
  cases outcome with
  | quiet goesOn d =>
    obtain ⟨_, _, _, _, rfl⟩ := d
    cases cue with
    | dialogue => cases goesOn
    | _ => rfl
  | _ => rfl

theorem line_executeAll (cues : List Cue) (s : Session σ) :
    (s.executeAll game cues).reveal.line? = (linesIn (cues.map .does)).getLast?.or s.reveal.line? := by
  induction cues generalizing s with
  | nil => rfl
  | cons cue cues ih =>
    have later := ih (s.execute game cue).2
    rw [line_execute, ← Option.or_assoc, ← List.getLast?_append, ← linesIn_append] at later
    exact later

theorem line_turn (s : Session σ) :
    (s.turn game).session.reveal.line? =
      (linesIn (s.turnDeeds game)).getLast?.or s.reveal.line? := by
  have turned := turn_turned game s
  generalize s.turnDeeds game = deeds at turned ⊢
  generalize s.turn game = turn at turned ⊢
  cases turned with
  | busy | ended => rfl
  | @deferred cue cues =>
    rw [Turn.session_ofFlow]
    exact line_execute cue { s with deferred := cues }
  | @single cue =>
    rw [Turn.session_ofFlow]
    exact line_execute cue { s with position := s.position + 1 }
  | @together cues =>
    obtain ⟨done, rest, -, deeds, carried⟩ :=
      together_split game cues { s with position := s.position + 1 }
    rw [deeds, Turn.session_goesOn, carried]
    exact line_executeAll done { s with position := s.position + 1 }

theorem line_completeLine (completion : Completion) (s : Session σ) :
    (s.completeLine game completion).reveal = s.reveal := by
  cases completion <;> rfl

theorem line_pressed (s : Session σ) :
    (s.pressed game).session.reveal.line? = s.reveal.line? := by
  have pressed := pressed_pressed game s
  generalize s.pressed game = turn at pressed ⊢
  cases pressed with
  | idle | goesOn => rfl
  | skipped revealing =>
    rw [Turn.session_rests, line_completeLine, revealing]
    rfl

theorem line_chosen (index : Nat) (s : Session σ) :
    (s.chosen game index).session.reveal = s.reveal := by
  have chosen := chosen_chosen game index s
  generalize s.chosen game index = turn at chosen ⊢
  cases chosen <;> rfl

theorem line_fire (kind : TimerKind) (s : Session σ) :
    (s.fire game kind).session.reveal.line? = s.reveal.line? := by
  have fired := fire_fired game kind s
  generalize s.fire game kind = turn at fired ⊢
  cases fired with
  | typed revealing =>
    rw [revealing]
    rfl
  | lineDone revealing =>
    rw [Turn.session_rests, line_completeLine, revealing]
    rfl
  | _ => rfl

/-- the line that is being revealed, or is done, is the one that has begun last -/
theorem Reaches.line {stage : σ} {deeds : List Deed} {turn : Turn σ}
    (h : Reaches game (.ofStage stage) deeds turn) :
    turn.session.reveal.line? = (linesIn deeds).getLast? := by
  induction h with
  | refl => rfl
  | stage _ _ ih => exact ih
  | @opened _ s _ ih =>
    obtain ⟨_, _, e, -⟩ := opened_session game s
    rw [e]
    exact ih
  | pressed _ _ ih => exact (line_pressed _).trans ih
  | chosen index _ ih => rw [line_chosen, ← ih, Turn.session_rests]
  | advanced _ _ ih => exact ih
  | @turn _ s _ _ ih =>
    rw [line_turn, linesIn_append, List.getLast?_append, ← ih, Turn.session_goesOn]
  | idle _ _ ih => exact ih
  | @fired _ s _ timer timers _ _ _ ih =>
    rw [linesIn_concat_of_none _ rfl, ← ih]
    exact line_fire timer.kind { s with timers := timers }
  | dropped _ _ _ ih => exact ih
  | clock _ _ _ ih => exact ih

end

/-! ## Sessions that their stage mirrors -/

/-- the overlays that the state of a session calls for -/
def Session.overlays (s : Session RecordingStage) (asks : Bool) : Overlays :=
  ⟨Suspension.menu s.suspension, s.reveal.text, s.cardShown, asks⟩

def Session.Asks (s : Session RecordingStage) : Prop :=
  s.suspension = none ∧ s.waitingForInput = true ∧ ∃ line, s.reveal = .done line

/-- the overlays are those that the session calls for, and the sign that playback can go on is given
only if the session asks for it -/
def Session.Turn.Mirrored : Turn RecordingStage → Prop
  | .rests s => ∃ asks, s.Overlaid (s.overlays asks) ∧ (asks = true → s.Asks)
  | .goesOn s => s.Overlaid (s.overlays false)

section
variable {game : Game} {s : Session RecordingStage}

theorem Session.Turn.Mirrored.of_silent {turn : Turn RecordingStage}
    (h : turn.session.Overlaid (turn.session.overlays false)) : turn.Mirrored := by
  cases turn with
  | rests s => exact ⟨false, h, nofun⟩
  | goesOn s => exact h

theorem Session.Turn.Mirrored.silent (h : Turn.Mirrored (.rests s)) (busy : ¬ s.Asks) :
    s.Overlaid (s.overlays false) := by
  obtain ⟨asks, overlaid, ready⟩ := h
  cases asks with
  | true => exact absurd (ready rfl) busy
  | false => exact overlaid

theorem overlays_of_no_menu (noMenu : Suspension.menu s.suspension = []) (asks : Bool) :
    s.overlays asks = ⟨[], s.reveal.text, s.cardShown, asks⟩ := by
  rw [Session.overlays, noMenu]

theorem menu_of_not_choosing (noMenu : s.isChoosing = false) :
    Suspension.menu s.suspension = [] := by
  unfold isChoosing at noMenu
  unfold Suspension.menu
  split
  · rename_i menu
    rw [menu] at noMenu
    cases noMenu
  · rfl

theorem menu_of_awaits {kind : TimerKind} (awaits : s.awaits? = some kind) :
    Suspension.menu s.suspension = [] := by
  refine menu_of_not_choosing ?_
  rw [Bool.eq_false_iff]
  intro choosing
  rw [awaits_none_of_suspension (.inr choosing)] at awaits
  cases awaits

theorem mirrored_execute (cue : Cue) (held : s.isBusy = true → cue.suspends = false)
    (h : s.Overlaid (s.overlays false)) :
    (s.execute game cue).2.Overlaid ((s.execute game cue).2.overlays false) := by
  have shown := h.execute game cue
  have noMenu (suspends : cue.suspends = true) :
      s.overlays false = ⟨[], s.reveal.text, s.cardShown, false⟩ := by
    have free : s.isBusy = false := by
      rw [Bool.eq_false_iff]
      intro busy
      simp [held busy] at suspends
    exact overlays_of_no_menu (by rw [suspension_of_free free]; rfl) false
  have outcome := execute_outcome game cue s
  generalize (s.execute game cue).1 = flow at outcome
  generalize (s.execute game cue).2 = s' at outcome shown ⊢
  cases outcome with
  | quiet goesOn d =>
    obtain ⟨_, _, _, _, rfl⟩ := d
    rw [overlay_of_not_suspends goesOn] at shown
    exact shown
  | video | videoStarted | jumped | noMenu => exact shown
  | menu | wait | waitVideo | line | card | noCard | sequence =>
    rw [noMenu rfl] at shown
    exact shown

theorem mirrored_turn (h : s.Overlaid (s.overlays false)) : (s.turn game).Mirrored :=
  .of_silent (turn_keeps game (P := fun s => s.Overlaid (s.overlays false))
    (fun _ cue held h => mirrored_execute cue held h) (fun _ _ h => h) (fun _ _ h => h) s h)

theorem mirrored_completeLine (completion : Completion) {line : Line} (done : s.reveal = .done line)
    (noMenu : Suspension.menu s.suspension = []) (h : s.Overlaid (s.overlays completion.asks)) :
    Turn.Mirrored (.rests (s.completeLine game completion)) := by
  rw [overlays_of_no_menu noMenu] at h
  cases completion with
  | autoAdvance => exact ⟨false, h, nofun⟩
  | waitForInput => exact ⟨true, h, fun _ => ⟨rfl, rfl, line, done⟩⟩

theorem done_of_tick {r reveal : LineReveal} {a scene : Scene RecordingStage} {completion : Completion}
    (e : LineReveal.tick game r a = (some completion, reveal, scene)) :
    ∃ line, reveal = .done line := by
  unfold LineReveal.tick at e
  split at e
  · split at e
    · cases e
      exact ⟨_, rfl⟩
    · cases e
  · cases e

theorem done_of_skip {r reveal : LineReveal} {a scene : Scene RecordingStage} {completion : Completion}
    (e : LineReveal.skip game r a = (some completion, reveal, scene)) :
    ∃ line, reveal = .done line := by
  unfold LineReveal.skip at e
  split at e
  · cases e
    exact ⟨_, rfl⟩
  · cases e

theorem mirrored_typeTick (noMenu : Suspension.menu s.suspension = [])
    (h : s.Overlaid (s.overlays false)) : Turn.Mirrored (.rests (s.typeTick game)) := by
  have further := Scene.Overlaid.tick game (r := s.reveal) (o := s.overlays false) h
  unfold Session.typeTick
  split
  · split
    · rename_i completion reveal scene e
      rw [e] at further
      obtain ⟨line, done⟩ := done_of_tick e
      exact mirrored_completeLine (s := { s with reveal := reveal, scene := scene }) completion done
        noMenu further
    · rename_i reveal scene e
      rw [e] at further
      exact ⟨false, further, nofun⟩
  · exact ⟨false, h, nofun⟩

/-- the timer that the session waits for keeps it mirrored -/
theorem mirrored_fire {kind : TimerKind} (awaits : s.awaits? = some kind)
    (h : s.Overlaid (s.overlays false)) : (s.fire game kind).Mirrored := by
  have noMenu := menu_of_awaits awaits
  by_cases typing : kind = .typeTick
  · subst typing
    exact mirrored_typeTick noMenu h
  refine .of_silent ?_
  have shown := h.fire game typing
  rw [overlays_of_no_menu noMenu] at shown
  have fired := fire_fired game kind s
  generalize s.fire game kind = turn at fired shown ⊢
  cases fired with
  | noLine | typed | lineDone => exact absurd rfl typing
  | advance | cardDone | framesDone | videoReached => exact shown
  | noCard | carded | noFrames | frame | noVideo | polled | checked =>
    rw [← overlays_of_no_menu noMenu] at shown
    exact shown

theorem mirrored_opened (idle : s.started = false → s.waitingForInput = false)
    (h : Turn.Mirrored (.rests s)) : (s.opened game).Mirrored := by
  cases started : s.started with
  | true =>
    have rests : s.opened game = .rests s := by rw [Session.opened, started, if_pos rfl]
    rw [rests]
    exact h
  | false =>
    refine .of_silent ?_
    have silent := h.silent fun ready => Bool.false_ne_true ((idle started).symm.trans ready.2.1)
    have shown := silent.opened game
    obtain ⟨_, _, e, -⟩ := opened_session game s
    rw [e] at shown ⊢
    exact shown

theorem mirrored_pressed (h : Turn.Mirrored (.rests s)) : (s.pressed game).Mirrored := by
  unfold Session.pressed
  split
  · exact h
  rename_i menu
  have noMenu : Suspension.menu s.suspension = [] := menu_of_not_choosing (by simpa using menu)
  split
  · -- the card is taken away if it is there, and the sign if it is given
    obtain ⟨asks, overlaid, -⟩ := h
    dsimp only
    split
    · exact (overlaid.direct (.card false) rfl).direct (.continueIndicator false) rfl
    · exact overlaid.direct (.continueIndicator false) rfl
  split
  · rename_i revealing
    have silent := h.silent fun ready => by
      obtain ⟨line, done⟩ := ready.2.2
      simp [done] at revealing
    have whole := Scene.Overlaid.skip game (r := s.reveal) (o := s.overlays false) silent
    split
    · rename_i completion reveal scene e
      rw [e] at whole
      obtain ⟨line, done⟩ := done_of_skip e
      exact mirrored_completeLine (s := { s with reveal := reveal, scene := scene }) completion done
        noMenu whole
    · rename_i reveal scene e
      rw [e] at whole
      exact ⟨false, whole, nofun⟩
  · exact h

theorem mirrored_chosen (index : Nat) (h : Turn.Mirrored (.rests s)) :
    (s.chosen game index).Mirrored := by
  have chosen := chosen_chosen game index s
  have hidden {options : List ChoiceOption} (menu : s.suspension = some (.choice options)) :=
    (h.silent fun ready => absurd (menu.symm.trans ready.1) nofun).chosen game index
  generalize s.chosen game index = turn at chosen hidden ⊢
  cases chosen with
  | idle => exact h
  | taken menu | jumped menu =>
    rcases hidden menu with rests | hidden
    · cases rests
    · exact hidden

end

theorem mirrored_keeps (game : Game) (stage : RecordingStage) :
    Keeps game Operation.Discreet fun deeds turn =>
      Reaches game (.ofStage stage) deeds turn ∧ turn.Mirrored where
  turn started h := ⟨h.1.turn started, mirrored_turn h.2⟩
  idle idle h := ⟨h.1.idle idle, false, h.2, nofun⟩
  fired {_ s _ timer timers} due live h := by
    obtain ⟨reached, mirrored⟩ := h
    refine ⟨reached.fired due live, ?_⟩
    obtain ⟨asks, overlaid, ready⟩ := mirrored
    rcases inStep_live (s := s) (reached.inStep (inStep_new stage)) due live with
      ⟨-, awaits, -⟩ | ⟨-, kind⟩
    · have silent : s.Overlaid (s.overlays false) := by
        refine Session.Turn.Mirrored.silent ⟨asks, overlaid, ready⟩ fun ready => ?_
        rw [awaits_none_of_suspension (.inl ready.1)] at awaits
        cases awaits
      exact mirrored_fire (s := { s with timers := timers }) awaits silent
    · obtain ⟨failed, e⟩ := fire_videoCheck game { s with timers := timers }
      rw [kind, e]
      exact ⟨asks, overlaid, ready⟩
  dropped due stale h := by
    obtain ⟨reached, asks, overlaid, ready⟩ := h
    exact ⟨reached.dropped due stale, asks, overlaid, ready⟩
  clock le nothing h := by
    obtain ⟨reached, asks, overlaid, ready⟩ := h
    exact ⟨reached.clock le nothing, asks, overlaid, ready⟩
  opened h := ⟨h.1.opened, mirrored_opened
    (fun idle => ((h.1.unhurried (inStep_new stage) (unhurried_new stage)).idle idle).2) h.2⟩
  pressed _ started h := ⟨h.1.pressed started, mirrored_pressed h.2⟩
  chosen index h := ⟨h.1.chosen index, mirrored_chosen index h.2⟩
  advanced allowed := allowed.elim
  stage {_ s f} discreet h := by
    obtain ⟨reached, asks, overlaid, ready⟩ := h
    obtain ⟨shown, seen⟩ := discreet s.stage
    exact ⟨reached.stage f, asks, overlaid.restage id shown seen, ready⟩

/-- **What stands over the pictures mirrors the session.** On a stage that was empty at first, the menu
on stage has the texts of the options of the open menu, and there is none while no menu is open; the
text is what is shown so far of the line that has begun last; the card is there while the session says
so, and the sprites are unless it has switched them off; and the sign that playback can go on is given
only while the session waits for the player and that line is done. -/
theorem overlays_mirror_the_session (game : Game) {stage : RecordingStage} {deeds : List Deed}
    {s : Session RecordingStage} (empty : stage.overlays = ⟨[], "", false, false⟩)
    (seen : stage.screen.spritesVisible = true)
    (h : ContinuesWithin Operation.Discreet game (.ofStage stage) deeds s) :
    s.stage.screen.choices = Suspension.menu s.suspension ∧
    s.stage.screen.text = String.ofList
      (((linesIn deeds).getLast?.elim [] fun line => line.text.toList).take s.reveal.shown) ∧
    s.stage.screen.cardVisible = s.cardShown ∧
    s.stage.screen.spritesVisible = !s.scene.spritesHidden ∧
    (s.stage.screen.continueVisible = true → s.waitingForInput = true ∧
      ∃ line, s.reveal = .done line ∧ (linesIn deeds).getLast? = some line) := by
  obtain ⟨reached, asks, overlaid, ready⟩ := h.keeps (mirrored_keeps game stage)
    ⟨.refl, false, ⟨empty, seen⟩, nofun⟩
  have line : s.reveal.line? = (linesIn deeds).getLast? := reached.line
  have shown : s.stage.overlays = s.overlays asks := overlaid.overlays
  refine ⟨congrArg Overlays.choices shown, ?_, congrArg Overlays.cardVisible shown, overlaid.sprites,
    fun lit => ?_⟩
  · rw [← line]
    exact congrArg Overlays.text shown
  · have asked : asks = true := (congrArg Overlays.continueVisible shown).symm.trans lit
    obtain ⟨last, done⟩ := (ready asked).2.2
    refine ⟨(ready asked).2.1, last, done, ?_⟩
    rw [← line, done]
    rfl

/-- a line is done, and the player is asked to go on -/
theorem sign_after_a_line :
    let game : Game := { script := .ofEvents [.single (.dialogue ⟨"Hi", none, false, false⟩)] }
    ∃ deeds, ∃ s : Session RecordingStage,
      ContinuesWithin Operation.Discreet game (.ofStage {}) deeds s ∧
        s.stage.screen.continueVisible = true ∧ s.waitingForInput = true ∧
        s.stage.screen.text = "Hi" := by
  intro game
  have plays : ∃ deeds, ∃ s : Session RecordingStage,
      ContinuesWithin Operation.Discreet game (.ofStage {}) deeds s ∧
        s.stage.screen.continueVisible = true ∧ s.reveal.shown = 2 ∧
        linesIn deeds = [⟨"Hi", none, false, false⟩] := by
    refine ⟨_, _, .operation (.runUntil 100 10) trivial (.operation .start trivial .refl rfl) rfl, ?_⟩
    decide +kernel
  obtain ⟨deeds, s, host, lit, shown, lines⟩ := plays
  obtain ⟨-, text, -, -, sign⟩ := overlays_mirror_the_session game rfl rfl host
  refine ⟨deeds, s, host, lit, (sign lit).1, ?_⟩
  rw [text, lines, shown]
  decide +kernel

end VisualNovel
