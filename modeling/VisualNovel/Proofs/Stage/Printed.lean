import VisualNovel.Proofs.Stage.Terminal

/-!
# What a terminal prints of each line

A line is printed character by character, and what is left of it at once if the player skips it. The
calls that do so are tapped here: beside the terminal it is kept what they have printed of each line.

* `Terminal.printedSince`     what has been printed between two states of a terminal;
* `Tapped`                    a terminal with what has been printed of each line;
* `Tapped.Taps.matching`      tapping changes nothing, and finds of each line what has been shown of it;
* `terminal_shows_what_is_recorded`   one session on a terminal and on a recording stage.
-/

namespace VisualNovel

open Presentation Audio

def Terminal.printedSince (before after : Terminal) : String :=
  String.ofList (after.printed.toList.drop before.printed.length)

theorem Terminal.printedSince_print (t : Terminal) (text : String) :
    t.printedSince (t.print text) = text := by
  rw [Terminal.printedSince, Terminal.print, String.toList_append, ← String.length_toList,
    List.drop_left, String.ofList_toList]

structure Tapped where
  terminal : Terminal
  texts : List String := []

namespace Tapped

def onTerminal (f : Terminal → Terminal) (t : Tapped) : Tapped := { t with terminal := f t.terminal }

def tap (f : Terminal → Terminal) (t : Tapped) : Tapped where
  terminal := f t.terminal
  texts := t.texts.dropLast ++ [t.texts.getLastD "" ++ t.terminal.printedSince (f t.terminal)]

instance : Presentation Tapped where
  preload t locators := t.onTerminal (preload · locators)
  setBackground t locator := t.onTerminal (setBackground · locator)
  setDesk t locator := t.onTerminal (setDesk · locator)
  setLayer t layer := t.onTerminal (setLayer · layer)
  addSprite t locator :=
    let (handle, terminal) := addSprite t.terminal locator
    (handle, { t with terminal })
  replaceSprite t handle locator := t.onTerminal (replaceSprite · handle locator)
  removeSprite t handle := t.onTerminal (removeSprite · handle)
  clearSprites t := t.onTerminal clearSprites
  setSpritesVisible t visible := t.onTerminal (setSpritesVisible · visible)
  showTextbox t visible := t.onTerminal (showTextbox · visible)
  setSpeaker t name := t.onTerminal (setSpeaker · name)
  clearText t style := { terminal := clearText t.terminal style, texts := t.texts ++ [""] }
  pushChar t c := t.tap (pushChar · c)
  setText t text := t.tap (setText · text)
  showContinue t visible := t.onTerminal (showContinue · visible)
  showCard t visible := t.onTerminal (showCard · visible)
  cardNewLine t := t.onTerminal cardNewLine
  cardPushChar t c := t.onTerminal (cardPushChar · c)
  playVideo t locator :=
    let (started, terminal) := playVideo t.terminal locator
    (started, { t with terminal })
  stopVideo t := t.onTerminal stopVideo
  videoTime t := videoTime t.terminal
  videoPaused t := videoPaused t.terminal
  videoEnded t := videoEnded t.terminal
  showChoices t labels := t.onTerminal (showChoices · labels)
  hideChoices t := t.onTerminal hideChoices

instance : Audio Tapped where
  playSound t key locator volume :=
    let (heard, terminal) := playSound t.terminal key locator volume
    (heard, { t with terminal })
  playMusic t key locator volume :=
    let (heard, terminal) := playMusic t.terminal key locator volume
    (heard, { t with terminal })
  stopMusic t := t.onTerminal stopMusic
  suspendAudio t := t.onTerminal suspendAudio
  resumeAudio t := t.onTerminal resumeAudio
  audioSuspended t := audioSuspended t.terminal

/-- the tapped terminal is the terminal itself, and what has been printed of the last line is its
text -/
structure Taps (texts : List String) (p : Terminal) (q : Tapped) : Prop where
  terminal : q.terminal = p
  printed : q.texts = texts
  shown : ∀ text, texts.getLast? = some text → p.view.text = text

namespace Taps

variable {texts : List String} {p : Terminal} {q : Tapped}

theorem onTerminal (h : Taps texts p q) (f : Terminal → Terminal)
    (same : (f p).view.text = p.view.text) : Taps texts (f p) (q.onTerminal f) where
  terminal := congrArg f h.terminal
  printed := h.printed
  shown text last := same.trans (h.shown text last)

theorem tap {shown text : String} (h : Taps (texts ++ [shown]) p q) (f : Terminal → Terminal)
    (added : shown ++ p.printedSince (f p) = text) (same : (f p).view.text = text) :
    Taps (texts ++ [text]) (f p) (q.tap f) where
  terminal := congrArg f h.terminal
  printed := by
    show q.texts.dropLast ++ [q.texts.getLastD "" ++ q.terminal.printedSince (f q.terminal)] = _
    rw [h.terminal, h.printed, List.dropLast_concat, List.getLastD_concat, added]
  shown text' last := by
    rw [List.getLast?_concat] at last
    exact same.trans (Option.some.inj last)

theorem text_eq {shown : String} (h : Taps (texts ++ [shown]) p q) : p.view.text = shown :=
  h.shown shown List.getLast?_concat

/-- a call that needs no handle or text leaves the line alone -/
theorem text_on (d : Direction) (p : Terminal) : (d.on p).view.text = p.view.text := by
  have note (t : Terminal) (news : Option String) : (t.note news).view = t.view := by
    cases news <;> rfl
  cases d with
  | background locator =>
    show (({ p with view := (p.view.setBackground locator).2 } : Terminal).note _).view.text = _
    rw [note, View.setBackground_snd]
  | desk locator =>
    show (({ p with view := (p.view.setDesk locator).2 } : Terminal).note _).view.text = _
    rw [note, View.setDesk_snd]
  | layer front =>
    show (({ p with view := (p.view.setLayer front).2 } : Terminal).note _).view.text = _
    rw [note, View.setLayer_snd]
  | continueIndicator visible => cases visible <;> rfl
  | stopMusic =>
    show (if p.music.isSome then { p with music := none }.printLine "  [Music stopped]"
      else p).view.text = _
    split <;> rfl
  | _ => rfl

theorem directed (d : Direction) (h : Taps texts p q) : Taps texts (d.on p) (d.on q) := by
  have tapped : d.on q = q.onTerminal d.on := by cases d <;> rfl
  rw [tapped]
  exact h.onTerminal d.on (text_on d p)

theorem loads_text (p : Terminal) (key locator : String) :
    (p.loads key locator).2.view.text = p.view.text := by
  cases cached : p.cache.outcomes.get? key with
  | some sound => rw [Terminal.loads_of_cached cached]
  | none => rw [Terminal.loads_of_new cached]

theorem matching (assets : AssetTable) : Matching assets fun _ => Taps where
  directed := directed
  switchedOn {_ _ p q} h := by
    have tapped : (if audioSuspended q then resumeAudio q else q) = q.onTerminal fun t =>
        if audioSuspended t then resumeAudio t else t := by
      show (if audioSuspended q.terminal then resumeAudio q else q) = { q with
        terminal := if audioSuspended q.terminal then resumeAudio q.terminal else q.terminal }
      split <;> rfl
    rw [tapped]
    refine h.onTerminal (fun t => if audioSuspended t then resumeAudio t else t) ?_
    split <;> rfl
  added locator h := by
    obtain rfl := h.terminal
    exact ⟨rfl, h.onTerminal (fun t => (addSprite t locator).2) rfl⟩
  replaced locator _ h := h.onTerminal (replaceSprite · _ locator) rfl
  removed {_ _ _ p _ handle} h := by
    refine h.onTerminal (removeSprite · handle) ?_
    rcases Terminal.removeSprite_cases p handle with e | ⟨line, e⟩
    · rw [e]
      rfl
    · rw [e]
      rfl
  cleared {_ _ p _} h := by
    refine h.onTerminal clearSprites ?_
    show (if p.view.clearSprites.1 then
        { p with view := p.view.clearSprites.2 }.printLine "  [characters cleared]"
      else { p with view := p.view.clearSprites.2 }).view.text = _
    split <;> rfl
  begun style h :=
    { terminal := congrArg (clearText · style) h.terminal
      printed := congrArg (· ++ [""]) h.printed
      shown := fun text last => by
        rw [List.getLast?_concat] at last
        exact Option.some.inj last }
  pushed {_ _ shown p _} c h := by
    have added : p.printedSince (pushChar p c) = c.toString := Terminal.printedSince_print p _
    refine h.tap (pushChar · c) ?_ ?_
    · rw [added]
      exact String.append_singleton
    · rw [← h.text_eq]
      exact String.append_singleton
  filled {_ _ shown text p _} begins h := by
    have added : p.printedSince (setText p text) = p.view.unprinted text :=
      Terminal.printedSince_print p _
    rw [← h.text_eq] at begins
    have whole := View.append_unprinted begins
    refine h.tap (setText · text) ?_ whole
    rw [added, ← h.text_eq]
    exact whole
  videoPlayed locator h := by
    obtain rfl := h.terminal
    exact ⟨rfl, h.onTerminal (fun t => (playVideo t locator).2) rfl⟩
  videoSeen _ := ⟨rfl, rfl, rfl⟩
  soundPlayed {_ _ p _ key locator} volume _ h :=
    h.onTerminal (fun t => (playSound t key locator volume).2) (loads_text p key locator)
  musicPlayed {_ _ p q key locator} volume _ h := by
    obtain rfl := h.terminal
    refine ⟨rfl, h.onTerminal (fun t => (playMusic t key locator volume).2) ?_⟩
    have text := loads_text q.terminal key locator
    simp only [Audio.playMusic]
    split
    · exact text
    · exact text

theorem new (terminal : Terminal) : Taps [] terminal { terminal } := ⟨rfl, rfl, nofun⟩

end Taps

end Tapped

/-! ## A session on a terminal -/

/-- **A session on a terminal is the session on a recording stage, and the terminal shows what is
recorded.** The sounds that fail on the recording stage are to be those that the terminal cannot load.
Then all moves lead to the same session on both, but for the stage, or have no result on either; the
background, the desk, the sprites, the speaker, the text and the music are the same. And what has been
printed of the lines that were begun is, line by line, all of the text, but for a last line that is
still being revealed. -/
theorem terminal_shows_what_is_recorded (game : Game) (audible : String → Bool) {failing : List String}
    (unheard : ∀ key locator, game.assets.get? key = some locator →
      (key ∈ failing ↔ audible locator = false)) (moves : List Move) :
    let terminal : Session Terminal := .ofStage { audible }
    let recording : Session RecordingStage :=
      .ofStage { screen := { videoBehavior := .fails }, sound := { failing } }
    let tapped : Session Tapped := .ofStage { terminal := { audible } }
    Option.Rel (fun s t => t = s.onto (s.scene.onto t.stage) ∧ s.stage.Shows t.stage)
        (terminal.follow game moves) (recording.follow game moves) ∧
      Option.Rel
        (fun s t => t = s.onto (s.scene.onto t.stage) ∧ t.stage.terminal = s.stage ∧
          t.stage.texts = shownOf (linesIn (terminal.followed game moves)) s.reveal)
        (terminal.follow game moves) (tapped.follow game moves) := by
  intro terminal recording tapped
  constructor
  · have alike : terminal.Alike (Terminal.Follows game.assets) [] recording :=
      .new (Terminal.Follows.new audible unheard)
    have followed := alike.follow (Terminal.Follows.matching game.assets) moves (inStep_new _)
      (inMode_new _)
    generalize terminal.follow game moves = here at followed ⊢
    generalize recording.follow game moves = there at followed ⊢
    cases followed with
    | none => exact .none
    | some alike => exact .some ⟨alike.stage_eq.1, alike.stage_eq.2.toShows⟩
  · have alike : terminal.Alike (fun _ => Tapped.Taps) [] tapped := .new (.new _)
    have followed := alike.follow (Tapped.Taps.matching game.assets) moves (inStep_new _)
      (inMode_new _)
    generalize terminal.followed game moves = deeds at followed ⊢
    generalize terminal.follow game moves = here at followed ⊢
    generalize tapped.follow game moves = there at followed ⊢
    cases followed with
    | none => exact .none
    | some alike =>
      obtain ⟨same, taps⟩ := alike.stage_eq
      exact .some ⟨same, taps.terminal, taps.printed⟩

/-- a line that is skipped after two characters, to music that cannot be loaded -/
theorem line_skipped_on_a_terminal :
    let line : Cue := .dialogue ⟨"Hello", some "Ann", false, false⟩
    let game : Game :=
      { script := .ofEvents [.single (.character (some "ann") .show),
          .single (.music .play (some "theme")), .single line]
        assets := .ofList [("ann", "ann.png"), ("theme", "theme.ogg")] }
    let audible (locator : String) : Bool := locator ≠ "theme.ogg"
    let moves : List Move := [.start, .runUntil 70 10, .activate]
    let terminal : Session Terminal := .ofStage { audible }
    let recording : Session RecordingStage :=
      .ofStage { screen := { videoBehavior := .fails }, sound := { failing := ["theme"] } }
    let tapped : Session Tapped := .ofStage { terminal := { audible } }
    (tapped.follow game moves).map (fun s => s.stage.texts) = some ["Hello"] ∧
      ((recording.follow game moves).map fun s => s.stage.screen.spriteLocators) =
        some ["ann.png"] ∧
      Option.Rel (fun s t => t = s.onto (s.scene.onto t.stage) ∧ s.stage.Shows t.stage)
        (terminal.follow game moves) (recording.follow game moves) := by
  intro line game audible moves terminal recording tapped
  refine ⟨by decide +kernel, by decide +kernel, ?_⟩
  refine (terminal_shows_what_is_recorded game audible ?_ moves).1
  intro key locator found
  have entry := Table.get?_iff.1 found
  have entries : game.assets.entries = [("ann", "ann.png"), ("theme", "theme.ogg")] := by
    decide +kernel
  rw [entries] at entry
  rcases List.mem_cons.1 entry with e | entry
  · cases e
    decide
  · cases List.mem_singleton.1 entry
    decide

end VisualNovel
