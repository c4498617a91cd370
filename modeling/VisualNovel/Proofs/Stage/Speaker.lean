import VisualNovel.Proofs.Session.History
import VisualNovel.Proofs.Session.Moves
import VisualNovel.Proofs.Stage.Parallel
import VisualNovel.Proofs.Stage.Terminal

/-!
# The speaker that a terminal names

A stage is told the speaker of each line when the line begins, and never at any other time. But the
text box is emptied before that, and this is when a terminal prints who speaks. So what it prints is
the speaker of the line before.

* `lastSpeaker`                 the speaker of the last line that has been carried out;
* `Minding`                     a property of stages that only the call for the speaker changes;
* `Minding.execute`, `Minding.turn`   it follows the lines that are carried out;
* `Minding.finds_turnHistory`   and so each line finds a stage that minds the line before;
* `Terminal.label_inj`          no two speakers have the same label;
* `labels_name_the_speaker_before`   what a terminal prints when a line begins.
-/

set_option linter.unusedSectionVars false

namespace VisualNovel

open Session Presentation Audio

/-- the speaker of the last line that has been carried out, if it has one -/
def lastSpeaker (deeds : List Deed) : Option String := (linesIn deeds).getLast?.bind Line.speaker

theorem lastSpeaker_append_of_nil (deeds : List Deed) {deeds' : List Deed}
    (quiet : linesIn deeds' = []) : lastSpeaker (deeds ++ deeds') = lastSpeaker deeds := by
  rw [lastSpeaker, linesIn_append, quiet, List.append_nil, lastSpeaker]

theorem lastSpeaker_line (deeds : List Deed) (line : Line) :
    lastSpeaker (deeds ++ [.does (.dialogue line)]) = line.speaker := by
  have one : linesIn [.does (.dialogue line)] = [line] := rfl
  rw [lastSpeaker, linesIn_append, one, List.getLast?_concat, Option.bind_some]

def Direction.isSpeaker : Direction → Bool
  | .speaker _ => true
  | _ => false

variable {σ : Type} [Presentation σ] [Audio σ]

/-- a property of a stage and a speaker that every call keeps, but that the stage has of another
speaker once it is told of that one -/
structure Minding (P : Option String → σ → Prop) : Prop where
  told {name : Option String} {p : σ} (name' : Option String) (h : P name p) :
    P name' (setSpeaker p name')
  directed {name : Option String} {p : σ} {d : Direction} (other : d.isSpeaker = false)
    (h : P name p) : P name (d.on p)
  added {name : Option String} {p : σ} (locator : String) (h : P name p) :
    P name (addSprite p locator).2
  replaced {name : Option String} {p : σ} (handle : Handle) (locator : String) (h : P name p) :
    P name (replaceSprite p handle locator)
  removed {name : Option String} {p : σ} (handle : Handle) (h : P name p) :
    P name (removeSprite p handle)
  cleared {name : Option String} {p : σ} (h : P name p) : P name (clearSprites p)
  begun {name : Option String} {p : σ} (style : TextStyle) (h : P name p) :
    P name (clearText p style)
  pushed {name : Option String} {p : σ} (c : Char) (h : P name p) : P name (pushChar p c)
  filled {name : Option String} {p : σ} (text : String) (h : P name p) : P name (setText p text)
  videoPlayed {name : Option String} {p : σ} (locator : String) (h : P name p) :
    P name (playVideo p locator).2
  soundPlayed {name : Option String} {p : σ} (key locator : String) (volume : Float32)
    (h : P name p) : P name (playSound p key locator volume).2
  musicPlayed {name : Option String} {p : σ} (key locator : String) (volume : Float32)
    (h : P name p) : P name (playMusic p key locator volume).2

namespace Minding

variable {P : Option String → σ → Prop} (minding : Minding P) {game : Game} {who : Option String}
include minding

/-! ## Scenes -/

section
variable {a : Scene σ}

theorem enter (name locator : String) (h : P who a.stage) : P who (a.enter name locator).stage := by
  unfold Scene.enter Scene.unhide
  dsimp only
  split
  · exact minding.added locator (minding.directed (d := .spritesVisible true) rfl h)
  · exact minding.added locator h

theorem leave (suffix name : String) (h : P who a.stage) : P who (a.leave suffix name).stage := by
  unfold Scene.leave
  split
  · exact minding.removed _ h
  · exact h

theorem animateCast (assets : AssetTable) (suffix : String) (talking : Bool) (p : String → Bool)
    (cast : List Actor) {stage : σ} (h : P who stage) :
    P who (Scene.animateCast assets suffix talking p cast stage).2.2 := by
  induction cast generalizing stage with
  | nil => exact h
  | cons actor cast ih =>
    simp only [Scene.animateCast]
    split
    · exact ih (minding.replaced _ _ h)
    · exact ih h

theorem talk (line : Line) (talking : Bool) (h : P who a.stage) :
    P who (LineReveal.talk game line talking a).stage := by
  unfold LineReveal.talk
  split
  · rw [Scene.animate_eq]
    exact minding.animateCast _ _ _ _ _ h
  · exact h

theorem voice (line : Line) (c : Char) (h : P who a.stage) :
    P who (LineReveal.voice game line c a).stage := by
  unfold LineReveal.voice LineReveal.playBlip
  dsimp only
  split
  · split
    · exact minding.talk line true (minding.soundPlayed _ _ _ h)
    · exact minding.talk line true h
  · exact h

theorem complete (line : Line) (h : P who a.stage) :
    P who (LineReveal.complete game line a).2.2.stage := by
  simp only [LineReveal.complete, LineReveal.finish]
  split
  · exact minding.talk line false h
  · exact minding.directed (d := .continueIndicator true) rfl (minding.talk line false h)

theorem tick (game : Game) (reveal : LineReveal) (h : P who a.stage) :
    P who (LineReveal.tick game reveal a).2.2.stage := by
  unfold LineReveal.tick
  split
  · split
    · exact minding.complete _ h
    · exact minding.voice _ _ (minding.pushed _ h)
  · exact h

theorem skip (game : Game) (reveal : LineReveal) (h : P who a.stage) :
    P who (LineReveal.skip game reveal a).2.2.stage := by
  unfold LineReveal.skip
  split
  · exact minding.complete _ (minding.filled _ h)
  · exact h

end

/-! ## Cues -/

variable {s : Session σ}

theorem showBackground (name : String) (h : P who s.stage) :
    P who (s.showBackground game name).stage := by
  unfold Session.showBackground
  split
  · exact minding.directed (d := .desk none) rfl (minding.directed (d := .background none) rfl h)
  · split
    · exact minding.directed (d := .background (some _)) rfl h
    · exact h

theorem showView (name : String) (h : P who s.stage) : P who (s.showView game name).stage := by
  unfold Session.showView
  split
  · exact minding.directed (d := .desk _) rfl
      (minding.showBackground (s := s.clearCast) _ (minding.cleared h))
  · exact h

theorem moveCharacter (name : Option String) (action : CastAction) (h : P who s.stage) :
    P who (s.moveCharacter game name action).stage := by
  unfold Session.moveCharacter
  split
  · exact minding.leave _ _ h
  · exact minding.cleared h
  · exact h
  · split
    · dsimp only
      split
      · exact minding.enter (a := s.scene.clear) _ _ (minding.cleared h)
      · exact minding.enter _ _ h
    · exact h

theorem playSound (name : String) (volume : Float32) (h : P who s.stage) :
    P who (s.playSound game name volume).stage := by
  unfold Session.playSound
  dsimp only
  split
  · exact minding.soundPlayed _ _ _ h
  · exact h

theorem stopMusic (h : P who s.stage) : P who s.stopMusic.stage := by
  unfold Session.stopMusic
  dsimp only
  split
  · exact minding.directed (d := .stopMusic) rfl h
  · exact h

theorem playMusic (name : String) (h : P who s.stage) : P who (s.playMusic game name).stage := by
  unfold Session.playMusic
  dsimp only
  split
  · split
    · exact minding.directed (d := .resumeAudio) rfl h
    · exact h
  · split
    · exact minding.musicPlayed _ _ _ (minding.stopMusic h)
    · exact minding.stopMusic h

theorem music (action : MusicAction) (name : Option String) (h : P who s.stage) :
    P who (s.music game action name).stage := by
  unfold Session.music
  split
  · exact minding.playMusic _ h
  · exact h
  · exact minding.directed (d := .suspendAudio) rfl h
  · exact minding.directed (d := .resumeAudio) rfl h
  · exact minding.stopMusic h

theorem showLine (line : Line) (h : P who s.stage) :
    P line.speaker (s.showLine game line).stage :=
  minding.told _ (minding.begun _ (minding.directed (d := .continueIndicator false) rfl
    (minding.directed (d := .layer _) rfl (minding.directed (d := .textbox true) rfl h))))

theorem stepCard (h : P who s.stage) : P who (s.stepCard game).stage := by
  unfold Session.stepCard
  split
  · exact h
  · have newLine (needed : Bool) (card : CardReveal) : P who
        (if needed then { s with card := some card }.onStage cardNewLine
          else { s with card := some card }).stage := by
      cases needed with
      | true => exact minding.directed (d := .cardNewLine) rfl h
      | false => exact h
    dsimp only
    split
    · rename_i needed c rest _
      exact minding.playSound (s := Session.onStage (cardPushChar · c) _) _ _
        (minding.directed (d := .cardChar c) rfl (newLine needed rest))
    · rename_i needed rest _
      exact newLine needed rest
    · exact h

theorem beginCard (lines : List String) (h : P who s.stage) :
    P who (s.beginCard game lines).stage :=
  minding.stepCard (s := { ({ s with
      typing := true, introMode := true, waitingForInput := false }.suspend .introCard).onStage fun p =>
        Presentation.showCard (Presentation.showTextbox p false) true with
      cardShown := true, card := some (.ofLines lines) })
    (minding.directed (d := .card true) rfl (minding.directed (d := .textbox false) rfl h))

theorem playVideo (name : String) (h : P who s.stage) : P who (s.playVideo game name).stage := by
  have front := minding.directed (d := .layer .video) rfl h
  unfold Session.playVideo
  dsimp only
  split
  · exact h
  · rename_i locator _
    have played := minding.videoPlayed locator front
    split
    · exact played
    · exact played

theorem waitForVideo (seconds : Float) (h : P who s.stage) :
    P who (s.waitForVideo game seconds).stage := by
  unfold Session.waitForVideo
  dsimp only
  split
  · exact h
  · exact h

theorem jump (target : String) (h : P who s.stage) : P who (s.jump game target).stage := by
  unfold Session.jump
  split
  · exact h
  · exact h

theorem openChoice (options : List ChoiceOption) (h : P who s.stage) :
    P who (s.openChoice options).2.stage := by
  unfold Session.openChoice
  split
  · exact h
  · exact minding.directed (d := .choices _) rfl h

theorem execute {deeds : List Deed} (cue : Cue) (h : P (lastSpeaker deeds) s.stage) :
    P (lastSpeaker (deeds ++ [.does cue])) (s.execute game cue).2.stage := by
  cases cue with
  | dialogue line =>
    rw [lastSpeaker_line]
    exact minding.showLine line h
  | background name =>
    rw [lastSpeaker_append_of_nil deeds rfl]
    exact minding.showBackground name h
  | view name =>
    rw [lastSpeaker_append_of_nil deeds rfl]
    exact minding.showView name h
  | music action name =>
    rw [lastSpeaker_append_of_nil deeds rfl]
    exact minding.music action name h
  | sound name =>
    rw [lastSpeaker_append_of_nil deeds rfl]
    exact minding.playSound name _ h
  | character name action =>
    rw [lastSpeaker_append_of_nil deeds rfl]
    exact minding.moveCharacter name action h
  | video name =>
    rw [lastSpeaker_append_of_nil deeds rfl]
    exact minding.playVideo name h
  | waitVideo seconds =>
    rw [lastSpeaker_append_of_nil deeds rfl]
    exact minding.waitForVideo seconds h
  | introEnd =>
    rw [lastSpeaker_append_of_nil deeds rfl]
    exact minding.directed (d := .layer .background) rfl (minding.directed (d := .stopVideo) rfl h)
  | introCard lines =>
    rw [lastSpeaker_append_of_nil deeds rfl]
    exact minding.beginCard lines h
  | sequence frames fps keepLast =>
    rw [lastSpeaker_append_of_nil deeds rfl]
    exact minding.cleared h
  | jump target =>
    rw [lastSpeaker_append_of_nil deeds rfl]
    exact minding.jump target h
  | choice options =>
    rw [lastSpeaker_append_of_nil deeds rfl]
    exact minding.openChoice options h
  | wait | introStart | label | unknown =>
    rw [lastSpeaker_append_of_nil deeds rfl]
    exact h

/-! ## Turns -/

theorem together {deeds : List Deed} (cues : List Cue) (h : P (lastSpeaker deeds) s.stage) :
    P (lastSpeaker (deeds ++ s.togetherDeeds game cues)) (s.together game cues).stage := by
  induction cues generalizing s deeds with
  | nil =>
    rw [togetherDeeds, List.append_nil]
    exact h
  | cons cue cues ih =>
    simp only [togetherDeeds, Session.together]
    split
    · rw [List.append_nil]
      exact h
    · rw [List.append_cons]
      exact ih (minding.execute cue h)

theorem turn {deeds : List Deed} (h : P (lastSpeaker deeds) s.stage) :
    P (lastSpeaker (deeds ++ s.turnDeeds game)) (s.turn game).session.stage := by
  have taken : lastSpeaker (deeds ++ [.takes s.position]) = lastSpeaker deeds :=
    lastSpeaker_append_of_nil deeds rfl
  have turned := turn_turned game s
  generalize s.turnDeeds game = deeds' at turned ⊢
  generalize s.turn game = turn at turned ⊢
  cases turned with
  | busy | ended =>
    rw [List.append_nil]
    exact h
  | @deferred cue cues =>
    rw [Turn.session_ofFlow]
    exact minding.execute (s := { s with deferred := cues }) cue h
  | @single cue =>
    rw [Turn.session_ofFlow, List.append_cons]
    exact minding.execute (s := { s with position := s.position + 1 }) cue (taken.symm ▸ h)
  | @together cues =>
    rw [Turn.session_goesOn, List.append_cons]
    exact minding.together (s := { s with position := s.position + 1 }) cues (taken.symm ▸ h)

theorem finds_turnHistory {deeds : List Deed} (h : P (lastSpeaker deeds) s.stage) :
    Finds (fun deeds s => P (lastSpeaker deeds) s.stage) deeds (s.turnHistory game) := by
  refine VisualNovel.finds_turnHistory (fun cue _ h => minding.execute cue h) (fun {deeds s} h => ?_)
    (fun _ h => h) h
  show P (lastSpeaker (deeds ++ [.takes s.position])) s.stage
  rw [lastSpeaker_append_of_nil deeds rfl]
  exact h

/-! ## Timers and the player -/

theorem completeLine (completion : Completion) (h : P who s.stage) :
    P who (s.completeLine game completion).stage := by
  cases completion with
  | autoAdvance => exact h
  | waitForInput => exact h

theorem typeTick (h : P who s.stage) : P who (s.typeTick game).stage := by
  have further := minding.tick game s.reveal h
  unfold Session.typeTick
  split
  · split
    · rename_i completion reveal scene e
      rw [e] at further
      exact minding.completeLine (s := { s with reveal := reveal, scene := scene }) completion further
    · rename_i reveal scene e
      rw [e] at further
      exact further
  · exact h

theorem nextFrame (h : P who s.stage) : P who (s.nextFrame game).session.stage := by
  unfold Session.nextFrame
  split
  · exact h
  · dsimp only
    split
    · exact minding.directed (d := .background (some _)) rfl h
    · exact h
  · dsimp only
    split
    · exact h
    · exact minding.directed (d := .spritesVisible false) rfl h

theorem pollVideo (h : P who s.stage) : P who (s.pollVideo game).session.stage := by
  unfold Session.pollVideo
  split
  · split
    · exact h
    · exact h
  · exact h

theorem checkVideo (h : P who s.stage) : P who s.checkVideo.stage := by
  unfold Session.checkVideo
  split
  · exact h
  · exact h

theorem fire (kind : TimerKind) (h : P who s.stage) :
    P who (s.fire game kind).session.stage := by
  cases kind with
  | advance => exact h
  | typeTick => exact minding.typeTick h
  | cardTick => exact minding.stepCard h
  | frame => exact minding.nextFrame h
  | videoPoll => exact minding.pollVideo h
  | videoCheck => exact minding.checkVideo h

theorem opened (h : P who s.stage) : P who (s.opened game).session.stage := by
  unfold Session.opened
  split
  · exact h
  · exact minding.directed (d := .resumeAudio) rfl
      (minding.directed (d := .preload game.assets.images) rfl h)

theorem pressed (h : P who s.stage) : P who (s.pressed game).session.stage := by
  have shown := minding.skip game s.reveal h
  unfold Session.pressed
  split
  · exact h
  split
  · dsimp only
    split
    · exact minding.directed (d := .continueIndicator false) rfl
        (minding.directed (d := .card false) rfl h)
    · exact minding.directed (d := .continueIndicator false) rfl h
  split
  · split
    · rename_i completion reveal scene e
      rw [e] at shown
      exact minding.completeLine (s := { s with reveal := reveal, scene := scene }) completion shown
    · rename_i reveal scene e
      rw [e] at shown
      exact shown
  · exact h

theorem chosen (index : Nat) (h : P who s.stage) : P who (s.chosen game index).session.stage := by
  have closed := minding.directed (d := .hideChoices) rfl h
  unfold Session.chosen
  split
  · split
    · dsimp only
      split
      · exact minding.jump (s := (s.onStage hideChoices).resume) _ closed
      · exact closed
    · exact h
  · exact h

theorem keeps (game : Game) {may : Operation σ → Prop}
    (gentle : ∀ {f : σ → σ}, may (.stage f) → ∀ {name : Option String} {p : σ},
      P name p → P name (f p)) :
    Keeps game may fun deeds turn => P (lastSpeaker deeds) turn.session.stage where
  turn _ h := minding.turn h
  idle _ h := h
  fired {deeds s _ timer timers} _ _ h := by
    rw [lastSpeaker_append_of_nil deeds rfl]
    exact minding.fire (s := { s with timers := timers }) timer.kind h
  dropped _ _ h := h
  clock _ _ h := h
  opened h := minding.opened h
  pressed _ _ h := minding.pressed h
  chosen index h := minding.chosen index h
  advanced _ _ h := h
  stage allowed h := gentle allowed h

end Minding

/-! ## Terminals -/

/-- the host may do anything but tell the terminal who speaks -/
def Operation.KeepsSpeaker : Operation Terminal → Prop
  | .stage f => ∀ p : Terminal, (f p).view.speaker = p.view.speaker
  | _ => True

namespace Terminal

@[simp] theorem note_view (p : Terminal) (news : Option String) : (p.note news).view = p.view := by
  cases news <;> rfl

@[simp] theorem loads_view (p : Terminal) (key locator : String) :
    (p.loads key locator).2.view = p.view := by
  cases cached : p.cache.outcomes.get? key with
  | some sound => rw [loads_of_cached cached]
  | none => rw [loads_of_new cached]

theorem speaker_on {d : Direction} (other : d.isSpeaker = false) (p : Terminal) :
    (d.on p).view.speaker = p.view.speaker := by
  cases d with
  | speaker => cases other
  | background locator =>
    show (note { p with view := (p.view.setBackground locator).2 } _).view.speaker = _
    rw [note_view, View.setBackground_snd]
  | desk locator =>
    show (note { p with view := (p.view.setDesk locator).2 } _).view.speaker = _
    rw [note_view, View.setDesk_snd]
  | layer front =>
    show (note { p with view := (p.view.setLayer front).2 } _).view.speaker = _
    rw [note_view, View.setLayer_snd]
  | continueIndicator visible => cases visible <;> rfl
  | stopMusic =>
    show (if p.music.isSome then { p with music := none }.printLine "  [Music stopped]"
      else p).view.speaker = _
    split <;> rfl
  | _ => rfl

theorem minding : Minding fun name (p : Terminal) => p.view.speaker = name where
  told _ _ := rfl
  directed other h := (speaker_on other _).trans h
  added _ h := h
  replaced _ _ h := h
  removed {_ p} handle h := by
    rcases removeSprite_cases p handle with e | ⟨line, e⟩
    · rw [e]
      exact h
    · rw [e]
      exact h
  cleared {_ p} h := by
    show (if p.view.clearSprites.1 then
        { p with view := p.view.clearSprites.2 }.printLine "  [characters cleared]"
      else { p with view := p.view.clearSprites.2 }).view.speaker = _
    split
    · exact h
    · exact h
  begun _ h := h
  pushed _ h := h
  filled _ h := h
  videoPlayed _ h := h
  soundPlayed key locator _ h := by
    rw [← h]
    exact congrArg View.speaker (loads_view _ key locator)
  musicPlayed {_ p} key locator volume h := by
    have loaded : (p.loads key locator).2.view.speaker = _ :=
      (congrArg View.speaker (loads_view p key locator)).trans h
    simp only [Audio.playMusic]
    split
    · exact loaded
    · exact loaded

theorem toList_label_some (name : String) (style : TextStyle) :
    (label (some name) style).toList = name.toList ++
      match style with
      | .spoken => [':', ' ']
      | .thought => " (thinking): ".toList := by
  cases style <;> exact String.toList_append

theorem label_some_ne (name : String) (style : TextStyle) :
    label (some name) style ≠ label none style := by
  intro same
  have ends := congrArg (fun text => text.toList.reverse.take 2) same
  rw [toList_label_some, List.reverse_append] at ends
  cases style with
  | spoken => simp [label] at ends
  | thought => simp [label] at ends

theorem label_inj {speaker speaker' : Option String} {style : TextStyle} :
    label speaker style = label speaker' style ↔ speaker = speaker' := by
  refine ⟨fun same => ?_, congrArg (label · style)⟩
  cases speaker with
  | none =>
    cases speaker' with
    | none => rfl
    | some name => exact absurd same.symm (label_some_ne name style)
  | some name =>
    cases speaker' with
    | none => exact absurd same (label_some_ne name style)
    | some name' =>
      have same := congrArg String.toList same
      rw [toList_label_some, toList_label_some, List.append_left_inj, String.toList_inj] at same
      rw [same]

/-- what is printed when a line begins: a change of the layer, and in a line of its own the label of
the speaker that the terminal remembers -/
theorem printed_showLine (game : Game) (s : Session Terminal) (line : Line) :
    (s.showLine game line).stage.printed =
      (setLayer s.stage (if s.introMode then .video else .background)).printed ++ "\n" ++
        label s.stage.view.speaker (if line.thought then .thought else .spoken) := by
  have remembered := speaker_on (d := .layer (if s.introMode then .video else .background)) rfl s.stage
  rw [← remembered]
  rfl

end Terminal

/-- **A terminal labels each line with the speaker of the line before.** Whatever the host does, but
for telling the terminal of a speaker itself: when a line begins, the terminal prints the label of the
speaker of the line that has begun before it, and of no speaker in front of the first one, in the style
of the new line. So a line has its own label if and only if it has the speaker of the line before. -/
theorem labels_name_the_speaker_before (game : Game) (audible : String → Bool) {deeds : List Deed}
    {s : Session Terminal}
    (host : ContinuesWithin Operation.KeepsSpeaker game (.ofStage { audible }) deeds s)
    {o : Operation Terminal} (allowed : o.KeepsSpeaker)
    {earlier later : List (Deed × Session Terminal)} {line : Line} {s₁ : Session Terminal}
    (begins : o.history game s = earlier ++ (.does (.dialogue line), s₁) :: later) :
    let front : Layer := if s₁.introMode then .video else .background
    let style : TextStyle := if line.thought then .thought else .spoken
    let before := lastSpeaker (deeds ++ earlier.map Prod.fst)
    (s₁.execute game (.dialogue line)).2.stage.printed =
        (setLayer s₁.stage front).printed ++ "\n" ++ Terminal.label before style ∧
      (Terminal.label before style = Terminal.label line.speaker style ↔ before = line.speaker) := by
  intro front style before
  have keeps : Keeps game Operation.KeepsSpeaker fun deeds (turn : Turn Terminal) =>
      turn.session.stage.view.speaker = lastSpeaker deeds :=
    Terminal.minding.keeps game fun allowed _ _ h => (allowed _).trans h
  have at_rest := host.keeps keeps rfl
  have finds := keeps.finds_history (P := fun deeds s => s.stage.view.speaker = lastSpeaker deeds)
    (fun h => Terminal.minding.finds_turnHistory h) (fun _ h => h) allowed at_rest
  rw [begins] at finds
  have remembered : s₁.stage.view.speaker = before := finds.entry
  refine ⟨?_, Terminal.label_inj⟩
  rw [← remembered]
  exact Terminal.printed_showLine game s₁ line

/-- the second of two lines is printed under the name of the first speaker -/
theorem line_under_another_name :
    let game : Game :=
      { script := .ofEvents [.single (.dialogue ⟨"Hi", some "Ann", false, false⟩),
          .single (.dialogue ⟨"Hello", some "Ben", false, false⟩)] }
    let terminal : Session Terminal := .ofStage { audible := fun _ => true }
    ((terminal.follow game [.start, .activate, .activate]).map fun s => s.stage.printed) =
        some ("\nHi ▼\n\n" ++ Terminal.label (some "Ann") .spoken) ∧
      Terminal.label (some "Ann") .spoken ≠ Terminal.label (some "Ben") .spoken := by
  decide +kernel

/-- what Ben thinks after a line of Ann is printed as a thought, but as one of Ann's -/
theorem thought_after_a_line :
    let thought : Line := ⟨"Hm", some "Ben", true, false⟩
    let game : Game :=
      { script := .ofEvents [.single (.dialogue ⟨"Hi", some "Ann", false, false⟩),
          .single (.dialogue thought)] }
    ∃ deeds, ∃ s s₁ : Session Terminal, ∃ earlier,
      ContinuesWithin Operation.KeepsSpeaker game (.ofStage { audible := fun _ => true }) deeds s ∧
        Operation.activate.history game s = earlier ++ [(.does (.dialogue thought), s₁)] ∧
        (s₁.execute game (.dialogue thought)).2.stage.printed =
          (setLayer s₁.stage .background).printed ++ "\n" ++ "Ann (thinking): " := by
  intro thought game
  have plays : ∃ deeds, ∃ s s₁ : Session Terminal, ∃ earlier,
      ContinuesWithin Operation.KeepsSpeaker game (.ofStage { audible := fun _ => true }) deeds s ∧
        Operation.activate.history game s = earlier ++ [(.does (.dialogue thought), s₁)] ∧
        lastSpeaker (deeds ++ earlier.map Prod.fst) = some "Ann" ∧ s₁.introMode = false := by
    refine ⟨_, _, _, [_], .operation .activate trivial (.operation .start trivial .refl rfl) rfl, rfl, ?_⟩
    decide +kernel
  obtain ⟨deeds, s, s₁, earlier, host, begins, last, front⟩ := plays
  obtain ⟨printed, -⟩ := labels_name_the_speaker_before game _ host (by trivial) begins
  refine ⟨deeds, s, s₁, earlier, host, begins, ?_⟩
  rw [last, front] at printed
  exact printed

end VisualNovel
