import VisualNovel.Session.Run

/-!
# What a step of a session can do

Each operation of a session, said once and for all: how it leaves what playback goes by (the place,
the flags, the suspension, the epoch, the timers, and what is being revealed). What it does to the
stage and to the music is left open here, since no later step depends on it.

* `Session.bare`                   a session without its scene and its music;
* `bare_showView`, `bare_music`     pictures and music leave it alone;
* `Outcome`, `execute_outcome`     carrying out a cue;
* `Fired`, `fire_fired`            a timer;
* `Pressed`, `pressed_pressed`     the player's key;
* `Chosen`, `chosen_chosen`        an option of the open menu;
* `turn_keeps`                     what every cue keeps, a turn keeps.
-/

set_option linter.unusedSectionVars false

namespace VisualNovel

/-- the timer that ends a suspension; a menu waits for the player alone -/
def Suspension.timer? : Suspension → Option TimerKind
  | typing => some .typeTick
  | autoAdvance | waiting => some .advance
  | videoWait _ => some .videoPoll
  | introCard => some .cardTick
  | sequence => some .frame
  | choice _ => none

namespace Session

section
variable {σ : Type}

/-- the timer that the session waits for -/
def awaits? (s : Session σ) : Option TimerKind := s.suspension.bind Suspension.timer?

/-- a turn leads to a session, whether it rests or goes on -/
def Turn.session : Turn σ → Session σ
  | .rests s => s
  | .goesOn s => s

@[simp] theorem Turn.session_rests (s : Session σ) : (Turn.rests s).session = s := rfl
@[simp] theorem Turn.session_goesOn (s : Session σ) : (Turn.goesOn s).session = s := rfl

@[simp] theorem Turn.session_ofFlow (r : Flow × Session σ) : (Turn.ofFlow r).session = r.2 := by
  obtain ⟨flow, s⟩ := r
  cases flow <;> rfl

/-! ## Stage and music -/

def bare (s : Session σ) : Session Unit :=
  { s with scene := { stage := () }, currentMusic := none, musicActive := false }

/-- two sessions that are the same but for the scene and the music -/
theorem exists_of_bare_eq {τ : Type} {s : Session σ} {t : Session τ} (h : s.bare = t.bare) :
    ∃ scene music heard,
      t = { s with scene := scene, currentMusic := music, musicActive := heard } := by
  refine ⟨t.scene, t.currentMusic, t.musicActive, ?_⟩
  cases s
  cases t
  cases h
  rfl

/-- `s'` differs from `s` on stage, in the music and in the mode of lines only -/
def Dressed (s s' : Session σ) : Prop :=
  ∃ scene music heard intro,
    s' = { s with scene := scene, currentMusic := music, musicActive := heard, introMode := intro }

namespace Dressed

theorem refl (s : Session σ) : Dressed s s := ⟨_, _, _, _, rfl⟩

theorem of_bare {s s' : Session σ} (h : s'.bare = s.bare) : Dressed s s' := by
  obtain ⟨scene, music, heard, rfl⟩ := exists_of_bare_eq h.symm
  exact ⟨scene, music, heard, s.introMode, rfl⟩

end Dressed

variable [Presentation σ] [Audio σ] (game : Game)

theorem bare_showBackground (name : String) (s : Session σ) :
    (s.showBackground game name).bare = s.bare := by
  unfold showBackground
  split
  · rfl
  · split <;> rfl

theorem bare_showView (name : String) (s : Session σ) : (s.showView game name).bare = s.bare := by
  unfold showView
  split
  · exact bare_showBackground game _ s.clearCast
  · rfl

theorem bare_moveCharacter (name : Option String) (action : CastAction) (s : Session σ) :
    (s.moveCharacter game name action).bare = s.bare := by
  unfold moveCharacter
  split
  · rfl
  · rfl
  · rfl
  · split
    · dsimp only
      split <;> rfl
    · rfl

theorem playSound_eq (name : String) (volume : Float32) (s : Session σ) :
    ∃ scene, s.playSound game name volume = { s with scene := scene } := by
  unfold playSound
  dsimp only
  split
  · exact ⟨_, rfl⟩
  · exact ⟨s.scene, rfl⟩

theorem bare_playSound (name : String) (volume : Float32) (s : Session σ) :
    (s.playSound game name volume).bare = s.bare := by
  obtain ⟨scene, h⟩ := playSound_eq game name volume s
  rw [h]
  rfl

theorem bare_stopMusic (s : Session σ) : s.stopMusic.bare = s.bare := by
  unfold stopMusic
  dsimp only
  split <;> rfl

theorem bare_playMusic (name : String) (s : Session σ) : (s.playMusic game name).bare = s.bare := by
  unfold playMusic
  dsimp only
  split
  · split <;> rfl
  · split
    · exact bare_stopMusic s
    · exact bare_stopMusic s

theorem bare_music (action : MusicAction) (name : Option String) (s : Session σ) :
    (s.music game action name).bare = s.bare := by
  unfold music
  split
  · exact bare_playMusic game _ s
  · rfl
  · rfl
  · rfl
  · exact bare_stopMusic s

/-! ## Cues -/

inductive Outcome (game : Game) (s : Session σ) : Cue → Flow → Session σ → Prop
  | quiet {cue : Cue} {s' : Session σ} (h : cue.suspends = false) (d : Dressed s s') :
      Outcome game s cue .goOn s'
  | video (name : String) (scene : Scene σ) (failed : Option Nat) :
      Outcome game s (.video name) .goOn
        { s with scene := scene, videoGeneration := s.videoGeneration + 1, videoFailedAt := failed }
  | videoStarted (name : String) (scene : Scene σ) (delay : Nat) :
      Outcome game s (.video name) .goOn
        { s with
          scene := scene, videoGeneration := s.videoGeneration + 1, videoFailedAt := none
          timers := s.timers.schedule delay .videoCheck (.video (s.videoGeneration + 1)) }
  | jumped {target : String} {place : Nat} (h : game.script.find? target = some place) :
      Outcome game s (.jump target) .goOn { s with position := place, epoch := s.epoch + 1 }
  | noMenu : Outcome game s (.choice []) .goOn s
  | menu (option : ChoiceOption) (options : List ChoiceOption) (scene : Scene σ) :
      Outcome game s (.choice (option :: options)) .hold
        ({ s with scene := scene }.suspend (.choice (option :: options)))
  | wait (seconds : Float) (delay : Nat) :
      Outcome game s (.wait seconds) .hold ((s.suspend .waiting).schedule delay .advance)
  | waitVideo (seconds : Float) (failed : Option Nat) (delay : Nat) :
      Outcome game s (.waitVideo seconds) .hold
        (({ s with videoFailedAt := failed }.suspend (.videoWait seconds)).schedule delay .videoPoll)
  | line (line : Line) (scene : Scene σ) (delay : Nat) :
      Outcome game s (.dialogue line) .hold
        (({ s with
            scene := scene, waitingForInput := false, typing := true
            reveal := .revealing line 0 }.suspend .typing).schedule delay .typeTick)
  | card (line : String) (lines : List String) (scene : Scene σ) (card : CardReveal) (delay : Nat) :
      Outcome game s (.introCard (line :: lines)) .hold
        (({ s with
            scene := scene, waitingForInput := false, typing := true, introMode := true
            cardShown := true, card := some card }.suspend .introCard).schedule delay .cardTick)
  | noCard (scene : Scene σ) :
      Outcome game s (.introCard []) .hold
        { ({ s with
            scene := scene, typing := false, introMode := true, cardShown := true
            card := none }.suspend .introCard).resume with waitingForInput := true }
  | sequence (frames : List String) (fps : Float) (keepLast : Bool) (scene : Scene σ) (delay : Nat) :
      Outcome game s (.sequence frames fps keepLast) .hold
        (({ s with
            scene := scene
            flipbook := some ⟨frames, delay, keepLast⟩ }.suspend .sequence).schedule delay .frame)

/-- a step of a card that has lines left shows something and sets the next timer; after the last line
the card is done and waits for the player -/
theorem stepCard_of_card {s : Session σ} {card : CardReveal} (h : s.card = some card) :
    card.rest ≠ [] ∧ (∃ scene delay,
      s.stepCard game =
        { s with scene := scene, card := some card.next.2 }.schedule delay .cardTick) ∨
    card.rest = [] ∧
      s.stepCard game =
        { { s with card := none, typing := false }.resume with waitingForInput := true } := by
  obtain ⟨rest, started⟩ := card
  rcases rest with _ | ⟨_ | ⟨c, cs⟩, lines⟩
  · right
    refine ⟨rfl, ?_⟩
    simp only [stepCard, h, CardReveal.next]
  · left
    refine ⟨by simp, ?_⟩
    simp only [stepCard, h, CardReveal.next]
    split
    · exact ⟨_, _, rfl⟩
    · exact ⟨s.scene, _, rfl⟩
  · left
    refine ⟨by simp, ?_⟩
    simp only [stepCard, h, CardReveal.next]
    obtain ⟨scene, e⟩ := playSound_eq game game.config.audio.introBlip game.config.audio.soundVolume
      (onStage (Presentation.cardPushChar · c) (if (!started) = true then
        { s with card := some ⟨cs :: lines, true⟩ }.onStage Presentation.cardNewLine
        else { s with card := some ⟨cs :: lines, true⟩ }))
    rw [e]
    split
    · exact ⟨_, _, rfl⟩
    · exact ⟨_, _, rfl⟩

theorem execute_outcome (cue : Cue) (s : Session σ) :
    Outcome game s cue (s.execute game cue).1 (s.execute game cue).2 := by
  cases cue with
  | background name => exact .quiet rfl (.of_bare (bare_showBackground game name s))
  | view name => exact .quiet rfl (.of_bare (bare_showView game name s))
  | music action name => exact .quiet rfl (.of_bare (bare_music game action name s))
  | sound name => exact .quiet rfl (.of_bare (bare_playSound game name _ s))
  | character name action => exact .quiet rfl (.of_bare (bare_moveCharacter game name action s))
  | dialogue line => exact .line line _ _
  | wait seconds => exact .wait seconds _
  | video name =>
    simp only [execute, playVideo]
    split
    · exact .video name s.scene _
    · split
      · exact .videoStarted name _ _
      · exact .video name _ _
  | waitVideo seconds =>
    simp only [execute, waitForVideo]
    split
    · exact .waitVideo seconds _ _
    · exact .waitVideo seconds s.videoFailedAt _
  | introStart => exact .quiet rfl ⟨_, _, _, _, rfl⟩
  | introEnd => exact .quiet rfl ⟨_, _, _, _, rfl⟩
  | introCard lines =>
    simp only [execute, beginCard]
    rcases stepCard_of_card game (s := { ({ s with
        typing := true, introMode := true, waitingForInput := false }.suspend .introCard).onStage fun p =>
          Presentation.showCard (Presentation.showTextbox p false) true with
        cardShown := true, card := some (.ofLines lines) }) rfl with ⟨ne, scene, delay, e⟩ | ⟨nil, e⟩
    · rw [e]
      cases lines with
      | nil => exact absurd rfl ne
      | cons line lines => exact .card line lines _ _ delay
    · rw [e]
      cases lines with
      | nil => exact .noCard _
      | cons line lines => cases nil
  | sequence frames fps keepLast => exact .sequence frames fps keepLast _ _
  | label name => exact .quiet rfl (.refl s)
  | jump target =>
    simp only [execute, jump]
    split
    · rename_i place h
      exact .jumped h
    · exact .quiet rfl (.refl s)
  | choice options =>
    cases options with
    | nil => exact .noMenu
    | cons option options => exact .menu option options _
  | unknown => exact .quiet rfl (.refl s)

/-! ## Timers -/

inductive Fired (s : Session σ) : TimerKind → Turn σ → Prop
  | advance : Fired s .advance (.goesOn s.resume)
  | noLine (h : s.reveal.isRevealing = false) : Fired s .typeTick (.rests s)
  | typed {line : Line} {shown : Nat} (h : s.reveal = .revealing line shown) (scene : Scene σ)
      (delay : Nat) :
      Fired s .typeTick
        (.rests ({ s with
          scene := scene, reveal := .revealing line (shown + 1) }.schedule delay .typeTick))
  | lineDone {line : Line} {shown : Nat} (h : s.reveal = .revealing line shown) (scene : Scene σ)
      (completion : Completion) :
      Fired s .typeTick
        (.rests ({ s with scene := scene, reveal := .done line }.completeLine game completion))
  | noCard (h : s.card = none) : Fired s .cardTick (.rests s)
  | carded (h : s.card.isSome) (scene : Scene σ) (card : CardReveal) (delay : Nat) :
      Fired s .cardTick
        (.rests ({ s with scene := scene, card := some card }.schedule delay .cardTick))
  | cardDone (h : s.card.isSome) :
      Fired s .cardTick
        (.rests { { s with card := none, typing := false }.resume with waitingForInput := true })
  | noFrames (h : s.flipbook = none) : Fired s .frame (.rests s)
  | frame (h : s.flipbook.isSome) (scene : Scene σ) (flipbook : Flipbook) (delay : Nat) :
      Fired s .frame
        (.rests ({ s with scene := scene, flipbook := some flipbook }.schedule delay .frame))
  | framesDone (h : s.flipbook.isSome) (scene : Scene σ) :
      Fired s .frame (.goesOn { s with scene := scene, flipbook := none }.resume)
  | noVideo (h : ∀ target, s.suspension ≠ some (.videoWait target)) : Fired s .videoPoll (.rests s)
  | polled {target : Float} (h : s.suspension = some (.videoWait target)) (delay : Nat) :
      Fired s .videoPoll (.rests (s.schedule delay .videoPoll))
  | videoReached {target : Float} (h : s.suspension = some (.videoWait target)) :
      Fired s .videoPoll (.goesOn s.resume)
  | checked (failed : Option Nat) : Fired s .videoCheck (.rests { s with videoFailedAt := failed })

theorem fire_fired (kind : TimerKind) (s : Session σ) : Fired game s kind (s.fire game kind) := by
  cases kind with
  | advance => exact .advance
  | typeTick =>
    cases h : s.reveal with
    | idle =>
      have e : s.fire game .typeTick = .rests s := by simp [fire, typeTick, h]
      exact e ▸ .noLine (by rw [h]; rfl)
    | done line =>
      have e : s.fire game .typeTick = .rests s := by simp [fire, typeTick, h]
      exact e ▸ .noLine (by rw [h]; rfl)
    | revealing line shown =>
      simp only [fire, typeTick, h, LineReveal.isRevealing_revealing, LineReveal.tick, if_true]
      cases line.text.toList[shown]? with
      | none => exact .lineDone h _ _
      | some c => exact .typed h _ _
  | cardTick =>
    cases h : s.card with
    | none =>
      have e : s.fire game .cardTick = .rests s := by simp [fire, stepCard, h]
      exact e ▸ .noCard h
    | some card =>
      have isSome : s.card.isSome := by simp [h]
      show Fired game s .cardTick (.rests (s.stepCard game))
      rcases stepCard_of_card game h with ⟨-, scene, delay, e⟩ | ⟨-, e⟩
      · rw [e]
        exact .carded isSome scene _ delay
      · rw [e]
        exact .cardDone isSome
  | frame =>
    simp only [fire, nextFrame]
    split
    · exact .noFrames ‹_›
    · rename_i h
      have isSome : s.flipbook.isSome := by simp [h]
      split
      · exact .frame isSome _ _ _
      · exact .frame isSome s.scene _ _
    · rename_i h
      have isSome : s.flipbook.isSome := by simp [h]
      split
      · exact .framesDone isSome s.scene
      · exact .framesDone isSome _
  | videoPoll =>
    simp only [fire, pollVideo]
    split
    · rename_i h
      split
      · exact .videoReached h
      · exact .polled h _
    · exact .noVideo ‹_›
  | videoCheck =>
    simp only [fire, checkVideo]
    split
    · exact .checked _
    · exact .checked s.videoFailedAt

/-- the check of a video may find it failed, and does nothing else -/
theorem fire_videoCheck (s : Session σ) :
    ∃ failed, s.fire game .videoCheck = .rests { s with videoFailedAt := failed } := by
  have fired := fire_fired game .videoCheck s
  generalize s.fire game .videoCheck = turn at fired ⊢
  cases fired with
  | checked failed => exact ⟨failed, rfl⟩

/-! ## The player -/

/-- the first start changes the stage, and nothing that playback goes by -/
theorem opened_session (s : Session σ) :
    ∃ scene started, (s.opened game).session = { s with scene := scene, started := started } ∧
      (s.started = true → started = true) := by
  unfold opened
  split
  · exact ⟨s.scene, s.started, rfl, id⟩
  · exact ⟨_, true, rfl, fun _ => rfl⟩

inductive Pressed (s : Session σ) : Turn σ → Prop
  | idle : Pressed s (.rests s)
  | goesOn (h : s.waitingForInput) (noMenu : s.isChoosing = false) (scene : Scene σ) (shown : Bool) :
      Pressed s (.goesOn { s with scene := scene, cardShown := shown, waitingForInput := false })
  | skipped {line : Line} {shown : Nat} (h : s.reveal = .revealing line shown) (scene : Scene σ)
      (completion : Completion) :
      Pressed s (.rests
        ({ s with scene := scene, reveal := .done line }.completeLine game completion))

theorem pressed_pressed (s : Session σ) : Pressed game s (s.pressed game) := by
  unfold pressed
  split
  · exact .idle
  rename_i menu
  have noMenu : s.isChoosing = false := by simpa using menu
  split
  · rename_i h
    dsimp only
    split
    · exact .goesOn h noMenu _ _
    · exact .goesOn h noMenu _ s.cardShown
  split
  · rename_i h
    cases r : s.reveal with
    | idle => simp [r] at h
    | done line => simp [r] at h
    | revealing line shown =>
      simp only [LineReveal.skip]
      exact .skipped r _ _
  · exact .idle

inductive Chosen (s : Session σ) : Turn σ → Prop
  | idle : Chosen s (.rests s)
  | taken {options : List ChoiceOption} (h : s.suspension = some (.choice options))
      (scene : Scene σ) :
      Chosen s (.goesOn { s with scene := scene }.resume)
  | jumped {options : List ChoiceOption} (h : s.suspension = some (.choice options)) (scene : Scene σ)
      {target : String} {place : Nat} (found : game.script.find? target = some place) :
      Chosen s (.goesOn
        { { s with scene := scene }.resume with position := place, epoch := s.epoch + 2 })

theorem chosen_chosen (index : Nat) (s : Session σ) : Chosen game s (s.chosen game index) := by
  unfold chosen
  split
  · rename_i options h
    split
    · rename_i option _
      dsimp only
      cases option.target with
      | none => exact .taken h _
      | some target =>
        simp only [jump]
        split
        · exact .jumped h _ ‹_›
        · exact .taken h _
    · exact .idle
  · exact .idle

/-! ## Turns -/

variable {P : Session σ → Prop}
  (keeps : ∀ s cue, (s.isBusy = true → cue.suspends = false) → P s → P (s.execute game cue).2)
  (defers : ∀ s cues, P s → P { s with deferred := cues })
include keeps defers

theorem together_keeps (cues : List Cue) (s : Session σ) (h : P s) : P (s.together game cues) := by
  induction cues generalizing s with
  | nil => exact h
  | cons cue cues ih =>
    simp only [together]
    split
    · exact defers s _ h
    · rename_i held
      exact ih _ (keeps s cue (by simpa using held) h)

theorem turn_keeps (moves : ∀ s place, P s → P { s with position := place }) (s : Session σ)
    (h : P s) :
    P (s.turn game).session := by
  unfold turn
  split
  · exact h
  rename_i free
  have free : s.isBusy = false := by simpa using free
  split
  · rename_i cue cues _
    rw [Turn.session_ofFlow]
    exact keeps { s with deferred := cues } cue (fun busy => absurd (free.symm.trans busy) nofun)
      (defers s _ h)
  · split
    · exact h
    · rename_i cue _
      rw [Turn.session_ofFlow]
      exact keeps { s with position := s.position + 1 } cue
        (fun busy => absurd (free.symm.trans busy) nofun)
        (moves s _ h)
    · exact together_keeps game keeps defers _ _ (moves s _ h)

end

end Session

end VisualNovel
