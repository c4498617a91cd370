import VisualNovel.Proofs.Session.Beats
import VisualNovel.Proofs.Stage.Overlays

/-!
# Lines are typed on time

A line is shown character by character, all of them an interval apart, and after the last one its timer
comes once more and ends the line. Each character that is spoken makes a blip, if there is one and its
data can be played.

* `SoundLog.plays`         a log after more calls;
* `Line.blip`              the blip that a character makes;
* `Scene.Typed`            so much of a line has been shown and heard;
* `LineReveal.said`        the scene once so many characters have been shown;
* `Session.lineRhythm`     each timer shows a character;
* `lines_are_typed_on_time`   what this means for a session that comes to a line.
-/

set_option linter.unusedSectionVars false

namespace VisualNovel

open Session Presentation Audio

/-! ## What is heard -/

namespace SoundLog

def plays (s : SoundLog) (calls : List SoundCall) : SoundLog := { s with calls := s.calls ++ calls.toArray }

theorem plays_nil (s : SoundLog) : s.plays [] = s := by
  rw [plays, Array.append_empty]

theorem plays_append (s : SoundLog) (calls calls' : List SoundCall) :
    s.plays (calls ++ calls') = (s.plays calls).plays calls' := by
  rw [plays, ← List.append_toArray, ← Array.append_assoc]
  rfl

theorem plays_failing (s : SoundLog) (calls : List SoundCall) : (s.plays calls).failing = s.failing := rfl

def accepted (failing : List String) (key : String) (volume : Float32) : List SoundCall :=
  if failing.contains key then [] else [.sound key volume]

theorem playSound_eq (s : SoundLog) (key locator : String) (volume : Float32) :
    (Audio.playSound s key locator volume).2 = s.plays (accepted s.failing key volume) := by
  simp only [Audio.playSound, accepted]
  split
  · exact (plays_nil s).symm
  · rfl

end SoundLog

/-- the blip that a character of a line makes: none for a blank or a thought, and none without an asset
or if its data cannot be played -/
def Line.blip (game : Game) (failing : List String) (line : Line) (c : Char) : List SoundCall :=
  let key := blipFor game.assets game.config.audio line.speaker
  if c ≠ ' ' && !line.thought && (game.assets.get? key).isSome then
    SoundLog.accepted failing key game.config.audio.blipVolume
  else []

/-- so much of the line has been shown on an empty text box, and heard after other sounds -/
structure Scene.Typed (game : Game) (line : Line) (before : SoundLog) (n : Nat)
    (a : Scene RecordingStage) : Prop where
  text : a.stage.screen.text = String.ofList (line.text.toList.take n)
  sound : a.stage.sound = before.plays ((line.text.toList.take n).flatMap (line.blip game before.failing))

namespace LineReveal

section
variable {σ : Type} [Presentation σ] [Audio σ]

def said (game : Game) (line : Line) (n : Nat) (a : Scene σ) : Scene σ :=
  (line.text.toList.take n).foldl (fun a c => voice game line c (a.onStage (pushChar · c))) a

theorem said_succ {game : Game} {line : Line} {n : Nat} {c : Char} (next : line.text.toList[n]? = some c)
    (a : Scene σ) :
    said game line (n + 1) a = voice game line c ((said game line n a).onStage (pushChar · c)) := by
  rw [said, List.take_add_one, next, List.foldl_append]
  rfl

end

variable {game : Game} {line : Line} {a : Scene RecordingStage}

theorem talk_frame (game : Game) (line : Line) (talking : Bool) (a : Scene RecordingStage) :
    (talk game line talking a).stage.screen.text = a.stage.screen.text ∧
      (talk game line talking a).stage.sound = a.stage.sound := by
  obtain ⟨sprites, calls, same⟩ := switchSprites_eq game line talking a.cast a.stage
  rw [talk_eq, same]
  exact ⟨rfl, rfl⟩

/-- a character makes its blip, and changes nothing of the text by itself -/
theorem voice_frame (game : Game) (line : Line) (c : Char) (a : Scene RecordingStage) :
    (voice game line c a).stage.screen.text = a.stage.screen.text ∧
      (voice game line c a).stage.sound = a.stage.sound.plays (line.blip game a.stage.sound.failing c) := by
  unfold voice Line.blip
  dsimp only
  cases spoken : decide (c ≠ ' ') && !line.thought with
  | false =>
    rw [Bool.false_and, if_neg Bool.false_ne_true, if_neg Bool.false_ne_true, SoundLog.plays_nil]
    exact ⟨rfl, rfl⟩
  | true =>
    obtain ⟨text, sound⟩ := talk_frame game line true (playBlip game line.speaker a)
    rw [if_pos rfl, text, sound, playBlip, Bool.true_and]
    cases game.assets.get? (blipFor game.assets game.config.audio line.speaker) with
    | none =>
      rw [Option.isSome_none, if_neg Bool.false_ne_true, SoundLog.plays_nil]
      exact ⟨rfl, rfl⟩
    | some locator =>
      rw [Option.isSome_some, if_pos rfl, ← SoundLog.playSound_eq _ _ locator]
      exact ⟨rfl, rfl⟩

theorem said_typed (game : Game) (line : Line) (empty : a.stage.screen.text = "") (n : Nat) :
    (said game line n a).Typed game line a.stage.sound n := by
  induction n with
  | zero => exact ⟨empty, (SoundLog.plays_nil _).symm⟩
  | succ n ih =>
    cases next : line.text.toList[n]? with
    | none =>
      have all : line.text.toList.take (n + 1) = line.text.toList.take n := by
        rw [List.take_add_one, next, Option.toList_none, List.append_nil]
      refine ⟨?_, ?_⟩
      · rw [all, said, all]
        exact ih.text
      · rw [all, said, all]
        exact ih.sound
    | some c =>
      obtain ⟨text, sound⟩ := voice_frame game line c ((said game line n a).onStage (pushChar · c))
      rw [said_succ next]
      refine ⟨?_, ?_⟩
      · rw [text, ← push_ofList_take next, ← ih.text]
        rfl
      · have heard : ((said game line n a).onStage (pushChar · c)).stage.sound =
            (said game line n a).stage.sound := rfl
        rw [sound, heard, ih.sound, SoundLog.plays_failing, ← SoundLog.plays_append, List.take_add_one,
          next, Option.toList_some, List.flatMap_append, List.flatMap_singleton]

/-- the end of a line makes no sound, and leaves its text -/
theorem finish_typed {before : SoundLog} {n : Nat} (h : a.Typed game line before n) :
    (finish game line a).2.Typed game line before n := by
  obtain ⟨text, sound⟩ := talk_frame game line false a
  unfold finish
  dsimp only
  split
  · exact ⟨text.trans h.text, sound.trans h.sound⟩
  · exact ⟨text.trans h.text, sound.trans h.sound⟩

end LineReveal

/-! ## The beats of a line -/

namespace Session

section
variable {σ : Type} [Presentation σ] [Audio σ]

def lineBegun (line : Line) (s : Session σ) : Session σ :=
  let s := s.onStage (showTextbox · true)
  let s := s.onStage (setLayer · (if s.introMode then .video else .background))
  let s := { s with waitingForInput := false, typing := true }.suspend .typing
  { s with reveal := .revealing line 0, scene := (LineReveal.begin line s.scene).2 }

def typed (game : Game) (line : Line) (s : Session σ) (n : Nat) : Session σ :=
  { s with reveal := .revealing line n, scene := LineReveal.said game line n s.scene }

def lineRhythm (game : Game) (line : Line) (s : Session σ) : Rhythm σ :=
  .even .typeTick s.now game.config.timing.typing line.text.length (s.typed game line)

variable {game : Game} {line : Line} {s : Session σ}

theorem lawful_lineRhythm
    (within : s.now + (line.text.length + 1) * game.config.timing.typing ≤ endOfTime) :
    (s.lineRhythm game line).Lawful game := by
  refine Rhythm.lawful_even within (fun _ => rfl) fun k more timers failed => ?_
  obtain ⟨c, next⟩ : ∃ c, line.text.toList[k]? = some c :=
    ⟨_, List.getElem?_eq_getElem (by rwa [String.length_toList])⟩
  simp only [fire, typeTick, clocked, typed, LineReveal.isRevealing_revealing, if_true,
    LineReveal.tick, next, LineReveal.said_succ next]

theorem follows_lineRhythm
    (within : s.now + (line.text.length + 1) * game.config.timing.typing ≤ endOfTime)
    (begun : s.reveal = .revealing line 0)
    (h : (s.schedule game.config.timing.typing .typeTick).Brought game) :
    (s.lineRhythm game line).Follows game 0 (s.schedule game.config.timing.typing .typeTick) := by
  have same : s.typed game line 0 = s := by
    rw [typed, ← begun]
    rfl
  have follows : (s.lineRhythm game line).Follows game 0
      ((s.typed game line 0).schedule game.config.timing.typing .typeTick) :=
    Rhythm.follows_even within (by rw [same]) (by rwa [same])
  rwa [same] at follows

theorem fire_of_typed (timers : Timers) (failed : Option Nat) :
    ((s.typed game line line.text.length).clocked timers failed).fire game .typeTick =
      .rests (completeLine game (if line.autoAdvance then .autoAdvance else .waitForInput)
        { s.clocked timers failed with
          reveal := .done line
          scene := (LineReveal.finish game line (LineReveal.said game line line.text.length s.scene)).2 }) := by
  have last : line.text.toList[line.text.length]? = none :=
    List.getElem?_eq_none (Nat.le_of_eq String.length_toList)
  have completion (a : Scene σ) : (LineReveal.finish game line a).1 =
      if line.autoAdvance then .autoAdvance else .waitForInput := by
    unfold LineReveal.finish
    dsimp only
    split <;> rfl
  simp only [fire, typeTick, clocked, typed, LineReveal.isRevealing_revealing, if_true,
    LineReveal.tick, last, LineReveal.complete, completion]

end

end Session

/-! ## Playback -/

/-- when the line is done that begins at some moment -/
def Line.endsAt (game : Game) (line : Line) (start : Nat) : Nat :=
  start + (line.text.length + 1) * game.config.timing.typing

section
variable {game : Game} {line : Line}

/-- the text box is empty when a line begins, and nothing is heard -/
theorem lineBegun_typed (line : Line) (s : Session RecordingStage) :
    (s.lineBegun line).scene.stage.screen.text = "" ∧
      (s.lineBegun line).scene.stage.sound = s.stage.sound :=
  ⟨rfl, rfl⟩

theorem done_of_typed {s x : Session RecordingStage}
    (found : (s.lineRhythm game line).Found line.text.length x)
    (brought : ∀ c, (x.fire game .typeTick).settle game = some c → c.Brought game)
    (empty : s.scene.stage.screen.text = "") :
    ∃ c, (x.fire game .typeTick).settle game = some c ∧ c.now = line.endsAt game s.now ∧
      c.reveal = .done line ∧ c.typing = false ∧
      c.scene.Typed game line s.scene.stage.sound line.text.length ∧
      (line.autoAdvance = false → c.suspension = none ∧ c.waitingForInput = true ∧
        ∀ moment, c.LastsUntil game moment) ∧
      (line.autoAdvance = true → c.suspension = some .autoAdvance ∧
        c.LastsUntil game (later c.now game.config.timing.autoAdvance)) := by
  obtain ⟨⟨timers, failed, rfl⟩, now⟩ := found
  have fires : ((s.typed game line line.text.length).clocked timers failed).fire game .typeTick = _ :=
    fire_of_typed timers failed
  have typed := LineReveal.finish_typed (LineReveal.said_typed game line empty line.text.length)
  refine ⟨_, congrArg (Turn.settle game) fires, ?_⟩
  have brought := brought _ (congrArg (Turn.settle game) fires)
  cases auto : line.autoAdvance with
  | false =>
    rw [auto] at brought
    exact ⟨now, rfl, rfl, typed, fun _ => ⟨rfl, rfl, lastsUntil_of_free brought rfl⟩, nofun⟩
  | true =>
    rw [auto] at brought
    refine ⟨now, rfl, rfl, typed, nofun, fun _ => ⟨rfl, ?_⟩⟩
    exact lastsUntil_of_pending brought
      ((Timers.enter_perm _ _).mem_iff.2 List.mem_cons_self) rfl

end

/-- **Lines are typed on time.** Let playback go on with a line of `n` characters at some moment. However
the host splits the time from then on, as long as it stops before `n + 1` intervals have passed, the
line is still being typed: one character has been shown for each interval that has passed, and each of
these has made its blip, unless it is a blank or a thought. After `n + 1` intervals, and not before, the
line is done: all runs that get there come by the same session, which shows the whole line. It waits for
the player from then on, or, if the line goes on by itself, until its pause has passed. -/
theorem lines_are_typed_on_time (game : Game) {stage : RecordingStage} {deeds : List Deed}
    {s : Session RecordingStage} (reached : Reaches game (.ofStage stage) deeds (.goesOn s))
    {line : Line} (takes : s.Takes game (.dialogue line)) (interval : 0 < game.config.timing.typing)
    (within : line.endsAt game s.now ≤ endOfTime) :
    ∃ s₁, s.turn game = .rests s₁ ∧
      (∀ limits : List UInt64, (∀ limit ∈ limits, limit.toNat < line.endsAt game s.now) →
        ∃ history s', s₁.RunsTo game limits history s' ∧ s'.now = max s.now (latest limits) ∧
          s'.suspension = some .typing ∧
          s'.scene.Typed game line s.stage.sound
            (min line.text.length ((s'.now - s.now) / game.config.timing.typing))) ∧
      ∃ history c, s₁.Via game (line.endsAt game s.now) history c ∧
        c.now = line.endsAt game s.now ∧ c.reveal = .done line ∧ c.typing = false ∧
        c.scene.Typed game line s.stage.sound line.text.length ∧
        (line.autoAdvance = false → c.suspension = none ∧ c.waitingForInput = true ∧
          ∀ moment, c.LastsUntil game moment) ∧
        (line.autoAdvance = true → c.suspension = some .autoAdvance ∧
          c.LastsUntil game (later c.now game.config.timing.autoAdvance)) := by
  have rests : s.turn game = .rests
      (({ s with position := s.position + 1 }.lineBegun line).schedule game.config.timing.typing
        .typeTick) := takes.turn
  have brought := takes.brought reached rests
  obtain ⟨empty, silent⟩ := lineBegun_typed line { s with position := s.position + 1 }
  generalize begun : ({ s with position := s.position + 1 } : Session RecordingStage).lineBegun line = b
    at rests brought empty silent
  have now : b.now = s.now := by rw [← begun]; rfl
  have why : b.suspension = some .typing := by rw [← begun]; rfl
  have reveal : b.reveal = .revealing line 0 := by rw [← begun]; rfl
  have silent : b.scene.stage.sound = s.stage.sound := silent
  rw [← now] at within ⊢
  rw [← silent]
  have lawful := lawful_lineRhythm within
  have follows := follows_lineRhythm within reveal brought
  refine ⟨_, rests, fun limits early => ?_, ?_⟩
  · obtain ⟨history, s', n, run, now', beats, follows', -⟩ :=
      Rhythm.Follows.even_within lawful follows rfl interval early
    obtain ⟨timers, failed, rfl⟩ := follows'.shown
    have shown : n ≤ line.text.length := follows'.le
    refine ⟨history, _, run, now', why, ?_⟩
    rw [← beats, Nat.min_eq_right shown]
    exact LineReveal.said_typed game line empty n
  · obtain ⟨-, entries, x, found, told, settles, fires⟩ := follows.ends lawful
    obtain ⟨c, settled, done⟩ := done_of_typed found settles empty
    exact ⟨_, c, (fires.elapsesVia settled).via, done⟩

/-- a line follows another by itself, and the host looks at it in between -/
theorem second_line_half_typed :
    let first : Line := ⟨"A", none, false, true⟩
    let line : Line := ⟨"H i", some "bob", false, false⟩
    let game : Game :=
      { script := .ofEvents [.single (.dialogue first), .single (.dialogue line)]
        assets := .ofList [("blip.wav", "b.wav")] }
    ∃ (deeds : List Deed) (s : Session RecordingStage),
      Reaches game (.ofStage {}) deeds (.goesOn s) ∧ s.Takes game (.dialogue line) ∧
        0 < game.config.timing.typing ∧ line.endsAt game s.now ≤ endOfTime ∧ s.now = 560 ∧
        ∃ s₁ history s', s.turn game = .rests s₁ ∧ s₁.RunsTo game [600, 590, 630] history s' ∧
          s'.suspension = some .typing ∧ s'.stage.screen.text = "H " ∧
          s'.stage.sound = s.stage.sound.plays [.sound "blip.wav" game.config.audio.blipVolume] := by
  intro first line game
  -- the first line is done, and the second one follows at 560
  have plays : ∃ s₀ : Session RecordingStage, (Session.ofStage {}).start game = some s₀ ∧
      (s₀.runUntil game 100 10).any (fun s => s.started ∧ s.typing = false ∧ s.deferred = [] ∧
        s.position = 1 ∧ s.epoch = 2 ∧ s.timers.now = 100 ∧
        s.timers.pending = [⟨560, .advance, .epoch 2⟩] ∧ s.stage.sound.failing = []) = true := by
    refine ⟨_, rfl, ?_⟩
    decide +kernel
  obtain ⟨s₀, start, runs⟩ := plays
  obtain ⟨s, run, facts⟩ := (Option.any_eq_true _ _).1 runs
  obtain ⟨started, still, unheld, place, epoch, now, pending, heard⟩ := of_decide_eq_true facts
  have due : s.timers.popDue? 560 = some (⟨560, .advance, .epoch 2⟩, ⟨560, []⟩) := by
    rw [Timers.popDue?_eq_some_iff, now]
    exact ⟨pending, Nat.le_refl _, rfl⟩
  have reached : Reaches game (.ofStage {}) _ (.goesOn (resume { s with timers := ⟨560, []⟩ })) :=
    ((Continues.refl.operation .start start).operation (.runUntil 100 10) run).reaches.fired due
      (by rw [isLive, epoch]; rfl)
  have takes : (resume { s with timers := ⟨560, []⟩ }).Takes game (.dialogue line) := by
    refine ⟨started, ?_, unheld, ?_⟩
    · show (s.typing || false) = false
      rw [still, Bool.or_false]
    · show game.script.events[s.position]? = _
      rw [place]
      rfl
  have within : line.endsAt game 560 ≤ endOfTime := by decide
  obtain ⟨s₁, turn, early, -⟩ := lines_are_typed_on_time game reached takes (by decide) within
  have before : ∀ limit ∈ [600, 590, 630], UInt64.toNat limit < line.endsAt game 560 := by
    rw [← latest_lt_iff (List.cons_ne_nil _ _)]
    decide
  obtain ⟨history, s', runs', now', why, typed⟩ := early [600, 590, 630] before
  have now' : s'.now = 630 := now'
  have two : min line.text.length ((630 - 560) / game.config.timing.typing) = 2 := by decide
  have typed : s'.scene.Typed game line s.stage.sound 2 := by
    rw [now'] at typed
    exact two ▸ typed
  refine ⟨_, _, reached, takes, by decide, within, rfl, s₁, history, s', turn, runs', why,
    typed.text.trans (by decide +kernel), typed.sound.trans (congrArg s.stage.sound.plays ?_)⟩
  have chars : line.text.toList.take 2 = ['H', ' '] := by decide +kernel
  have key : blipFor game.assets game.config.audio line.speaker = "blip.wav" := by decide +kernel
  have found : game.assets.get? "blip.wav" = some "b.wav" := by decide +kernel
  have spoken : line.thought = false := rfl
  rw [chars, heard]
  simp [Line.blip, key, found, spoken, SoundLog.accepted]

end VisualNovel
