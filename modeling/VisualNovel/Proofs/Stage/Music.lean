import Mathlib.Data.List.Chain
import VisualNovel.Proofs.Session.Deeds
import VisualNovel.Proofs.Stage.Tuneless
import VisualNovel.Session.Rehearsal

/-!
# The music that is heard

A session knows the music it has asked for, and whether it is heard. A recording stage knows what music
is heard, and writes down when it starts and stops. The two agree, whichever keys the stage fails to
play from one moment to the next: music that has not started is remembered by the session, but counts
as silence on both sides.

* `SoundLog.switches`       when music has started and stopped;
* `Operation.SparesMusic`   what a host may do who leaves the music alone;
* `Session.InTune`          the session and the stage agree about the music;
* `Session.InTune.stopMusic`, `Session.InTune.playMusic`, `Session.InTune.music`   what cues make of it;
* `inTune_keeps`            playback keeps it so;
* `music_mirrors_the_stage`   what this means for a session that operations bring about.
-/

namespace VisualNovel

open Session

/-! ## Starts and stops -/

def SoundCall.switch? : SoundCall → Option Bool
  | .music _ _ => some true
  | .stopMusic => some false
  | _ => none

/-- the starts of music and its stops, in order -/
def SoundLog.switches (s : SoundLog) : List Bool := s.calls.toList.filterMap SoundCall.switch?

theorem switches_log (s : SoundLog) (call : SoundCall) :
    (s.log call).switches = s.switches ++ call.switch?.toList := by
  unfold SoundLog.log SoundLog.switches
  rw [Array.toList_push, List.filterMap_append]
  cases call <;> rfl

def TakeTurns (switches : List Bool) : Prop :=
  switches.IsChain (· ≠ ·) ∧ ∀ first ∈ switches.head?, first = true

theorem TakeTurns.concat {switches : List Bool} {start : Bool} (h : TakeTurns switches)
    (other : switches.getLast? = some true ↔ start = false) : TakeTurns (switches ++ [start]) := by
  obtain ⟨chain, first⟩ := h
  rcases List.eq_nil_or_concat switches with rfl | ⟨earlier, last, rfl⟩
  · have begins : start = true := by simpa using other
    refine ⟨.singleton start, fun _ m => ?_⟩
    cases m
    exact begins
  · rw [List.concat_eq_append] at chain first other ⊢
    have differs : last ≠ start := by
      intro same
      subst same
      cases last <;> simp at other
    refine ⟨List.isChain_append.2 ⟨chain, .singleton start, ?_⟩, ?_⟩
    · intro x isLast y isStart
      rw [List.getLast?_concat] at isLast
      cases isLast
      cases isStart
      exact differs
    · cases earlier with
      | nil => exact first
      | cons y earlier => exact first

/-! ## Stages -/

/-- the stages on which the same music is heard, and has been switched on and off alike -/
def RecordingStage.Undisturbed (p q : RecordingStage) : Prop :=
  q.sound.music = p.sound.music ∧ q.sound.switches = p.sound.switches

namespace RecordingStage

theorem undisturbed_log (p : RecordingStage) {sound : SoundLog} {call : SoundCall}
    (music : sound.music = p.sound.music) (calls : sound.calls = p.sound.calls.push call)
    (other : call.switch? = none) : p.Undisturbed { p with sound } := by
  refine ⟨music, ?_⟩
  show sound.calls.toList.filterMap SoundCall.switch? = p.sound.calls.toList.filterMap SoundCall.switch?
  rw [calls, Array.toList_push, List.filterMap_append, List.filterMap_cons_none other,
    List.filterMap_nil, List.append_nil]

theorem undisturbed_tuneless : Tuneless Undisturbed where
  refl _ := ⟨rfl, rfl⟩
  trans first second := ⟨second.1.trans first.1, second.2.trans first.2⟩
  directed d other p := by
    cases d with
    | stopMusic => cases other
    | suspendAudio | resumeAudio => exact undisturbed_log p rfl rfl rfl
    | _ => exact ⟨rfl, rfl⟩
  added _ _ := ⟨rfl, rfl⟩
  replaced _ _ _ := ⟨rfl, rfl⟩
  removed _ _ := ⟨rfl, rfl⟩
  cleared _ := ⟨rfl, rfl⟩
  begun _ _ := ⟨rfl, rfl⟩
  pushed _ _ := ⟨rfl, rfl⟩
  filled _ _ := ⟨rfl, rfl⟩
  videoPlayed _ _ := ⟨rfl, rfl⟩
  soundPlayed key locator volume p := by
    by_cases fails : p.sound.failing.contains key = true
    · simp only [Audio.playSound, fails, if_true]
      exact ⟨rfl, rfl⟩
    · simp only [Audio.playSound, fails]
      exact undisturbed_log p rfl rfl rfl

theorem playMusic_of_fails {p : RecordingStage} {key : String}
    (fails : p.sound.failing.contains key = true) (locator : String) (volume : Float32) :
    Audio.playMusic p key locator volume = (false, p) := by
  simp only [Audio.playMusic, fails, if_true]

theorem playMusic_of_plays {p : RecordingStage} {key : String}
    (plays : p.sound.failing.contains key = false) (locator : String) (volume : Float32) :
    Audio.playMusic p key locator volume =
      (true, { p with sound := { p.sound with music := some key }.log (.music key volume) }) := by
  simp only [Audio.playMusic, plays, Bool.false_eq_true, if_false]

end RecordingStage

/-- the host may do anything but start and stop music by itself; it may change which keys fail -/
def Operation.SparesMusic : Operation RecordingStage → Prop
  | .stage f => ∀ p : RecordingStage, p.Undisturbed (f p)
  | _ => True

/-! ## Sessions -/

namespace Session

/-- the music that the session knows to be heard -/
def heard? {σ : Type} (s : Session σ) : Option String := if s.musicActive then s.currentMusic else none

structure InTune (game : Game) (s : Session RecordingStage) : Prop where
  heard : s.stage.sound.music = s.heard?
  current : s.musicActive = true → ∃ key, s.currentMusic = some key ∧ game.assets.contains key = true
  turns : TakeTurns s.stage.sound.switches
  last : s.stage.sound.switches.getLast? = some true ↔ s.musicActive = true

namespace InTune

variable {game : Game} {s s' : Session RecordingStage}

theorem of_sameMusic (h : s.InTune game) (same : SameMusic RecordingStage.Undisturbed s s') :
    s'.InTune game where
  heard := by rw [heard?, same.active, same.current, same.stage.1, h.heard, heard?]
  current active := by
    rw [same.active] at active
    rw [same.current]
    exact h.current active
  turns := by
    rw [same.stage.2]
    exact h.turns
  last := by
    rw [same.stage.2, same.active]
    exact h.last

theorem stopMusic (h : s.InTune game) : s.stopMusic.InTune game := by
  cases active : s.musicActive with
  | true =>
    have e : s.stopMusic =
        { s.onStage Audio.stopMusic with musicActive := false, currentMusic := none } := by
      simp [Session.stopMusic, active]
    have switches : s.stopMusic.stage.sound.switches = s.stage.sound.switches ++ [false] := by
      rw [e]
      exact switches_log _ .stopMusic
    have last : s.stage.sound.switches.getLast? = some true := h.last.2 active
    refine ⟨?_, ?_, ?_, ?_⟩
    · rw [e]
      rfl
    · rw [e]
      nofun
    · rw [switches]
      exact h.turns.concat (by simp [last])
    · rw [switches, e]
      simp
  | false =>
    have e : s.stopMusic = { s with musicActive := false, currentMusic := none } := by
      simp [Session.stopMusic, active]
    have silent : s.stage.sound.music = none := by
      rw [h.heard, heard?, active]
      rfl
    rw [e]
    exact ⟨silent, nofun, h.turns, by rw [← active]; exact h.last⟩

theorem started {key locator : String} (volume : Float32) (h : s.InTune game)
    (silent : s.musicActive = false) (found : game.assets.contains key = true) :
    InTune game { s with
      scene := { s.scene with stage := (Audio.playMusic s.stage key locator volume).2 }
      currentMusic := some key
      musicActive := (Audio.playMusic s.stage key locator volume).1 } := by
  cases fails : s.stage.sound.failing.contains key with
  | true =>
    rw [RecordingStage.playMusic_of_fails fails]
    have none : s.stage.sound.music = none := by
      rw [h.heard, heard?, silent]
      rfl
    exact ⟨none, nofun, h.turns, by rw [← silent]; exact h.last⟩
  | false =>
    rw [RecordingStage.playMusic_of_plays fails]
    have switches :
        ({ s.stage.sound with music := some key }.log (.music key volume)).switches =
          s.stage.sound.switches ++ [true] :=
      switches_log _ (.music key volume)
    have last : s.stage.sound.switches.getLast? ≠ some true := by
      rw [Ne, h.last, silent]
      nofun
    refine ⟨rfl, fun _ => ⟨key, rfl, found⟩, ?_, ?_⟩
    · show TakeTurns ({ s.stage.sound with music := some key }.log (.music key volume)).switches
      rw [switches]
      exact h.turns.concat (by simp [last])
    · show ({ s.stage.sound with music := some key }.log (.music key volume)).switches.getLast? = _ ↔ _
      rw [switches]
      simp

theorem playMusic (h : s.InTune game) (name : String) : (s.playMusic game name).InTune game := by
  unfold Session.playMusic
  dsimp only
  split
  · split
    · exact h.of_sameMusic (.direct RecordingStage.undisturbed_tuneless .resumeAudio rfl s)
    · exact h
  · cases found : game.assets.get? (musicKey name) with
    | none => exact h.stopMusic
    | some locator =>
      refine h.stopMusic.started _ rfl ?_
      rw [Table.contains, found, Option.isSome_some]

theorem music (h : s.InTune game) (action : MusicAction) (name : Option String) :
    (s.music game action name).InTune game := by
  have tuneless := RecordingStage.undisturbed_tuneless
  unfold Session.music
  split
  · exact h.playMusic _
  · exact h
  · exact h.of_sameMusic (.direct tuneless .suspendAudio rfl s)
  · exact h.of_sameMusic (.direct tuneless .resumeAudio rfl s)
  · exact h.stopMusic

theorem execute (h : s.InTune game) (cue : Cue) : (s.execute game cue).2.InTune game := by
  cases cue with
  | music action name => exact h.music action name
  | _ => exact h.of_sameMusic (.execute RecordingStage.undisturbed_tuneless rfl s)

theorem turn (h : s.InTune game) : (s.turn game).session.InTune game :=
  turn_keeps game (P := InTune game) (fun _ cue _ h => h.execute cue)
    (fun _ _ h => ⟨h.heard, h.current, h.turns, h.last⟩)
    (fun _ _ h => ⟨h.heard, h.current, h.turns, h.last⟩) s h

end InTune

/-- music that is already heard is neither started again nor stopped -/
theorem undisturbed_of_heard (game : Game) {s : Session RecordingStage} {name : String}
    (heard : s.heard? = some (musicKey name)) :
    s.stage.Undisturbed (s.execute game (.music .play (some name))).2.stage := by
  unfold heard? at heard
  split at heard
  · rename_i active
    have again : (s.execute game (.music .play (some name))).2 =
        if Audio.audioSuspended s.stage then s.onStage Audio.resumeAudio else s := by
      simp [Session.execute, Session.music, Session.playMusic, active, heard]
    rw [again]
    split
    · exact RecordingStage.undisturbed_tuneless.directed .resumeAudio rfl s.stage
    · exact RecordingStage.undisturbed_tuneless.refl s.stage
  · cases heard

end Session

/-! ## Playback -/

theorem inTune_keeps (game : Game) :
    Keeps game Operation.SparesMusic fun _ turn => turn.session.InTune game where
  turn _ h := h.turn
  idle _ h := h
  fired {_ s _ timer timers} _ _ h := by
    have popped : InTune game { s with timers := timers } := ⟨h.heard, h.current, h.turns, h.last⟩
    exact popped.of_sameMusic (.fire RecordingStage.undisturbed_tuneless timer.kind _)
  dropped _ _ h := ⟨h.heard, h.current, h.turns, h.last⟩
  clock _ _ h := ⟨h.heard, h.current, h.turns, h.last⟩
  opened h := h.of_sameMusic (.opened RecordingStage.undisturbed_tuneless _)
  pressed _ _ h := h.of_sameMusic (.pressed RecordingStage.undisturbed_tuneless _)
  chosen index h := h.of_sameMusic (.chosen RecordingStage.undisturbed_tuneless index _)
  advanced _ _ h := h
  stage {_ s _} allowed h := InTune.of_sameMusic (s := s) h ⟨allowed s.stage, rfl, rfl⟩

/-- **The music of a session mirrors what is heard.** On a recording stage where no music has been
played before, whichever keys fail to play and whenever that changes: the stage plays the current music
of the session while that is active, and nothing otherwise; active music is known by a key that is in
the asset table; starts and stops of music take turns, beginning with a start; and a cue to play what
is already active starts and stops nothing. -/
theorem music_mirrors_the_stage (game : Game) {stage : RecordingStage}
    (silent : stage.sound.music = none) (fresh : stage.sound.switches = []) {deeds : List Deed}
    {s : Session RecordingStage}
    (h : ContinuesWithin Operation.SparesMusic game (.ofStage stage) deeds s) :
    s.stage.sound.music = (if s.musicActive then s.currentMusic else none) ∧
    (s.musicActive = true →
      ∃ key, s.currentMusic = some key ∧ game.assets.contains key = true) ∧
    s.stage.sound.switches.IsChain (· ≠ ·) ∧
    (∀ first ∈ s.stage.sound.switches.head?, first = true) ∧
    ∀ (s' : Session RecordingStage) (name : String), s'.musicActive = true →
      s'.currentMusic = some (musicKey name) →
      (s'.execute game (.music .play (some name))).2.stage.sound.switches =
        s'.stage.sound.switches := by
  have new : (Session.ofStage stage).InTune game := by
    refine ⟨silent, nofun, ?_, ?_⟩
    · show TakeTurns stage.sound.switches
      rw [fresh]
      exact ⟨.nil, nofun⟩
    · show stage.sound.switches.getLast? = some true ↔ _
      rw [fresh]
      exact ⟨nofun, nofun⟩
  have inTune : s.InTune game := h.keeps (inTune_keeps game) new
  refine ⟨inTune.heard, inTune.current, inTune.turns.1, inTune.turns.2, ?_⟩
  intro s' name active current
  have heard : s'.heard? = some (musicKey name) := by rw [heard?, active, if_pos rfl, current]
  exact (undisturbed_of_heard game heard).2

/-- music that starts, goes on, and is replaced by music that has begun to fail meanwhile -/
theorem music_mirrors_a_failing_stage :
    let game : Game :=
      { script := .ofEvents [.single (.music .play (some "bgm/a.ogg")),
          .single (.dialogue ⟨"", none, false, true⟩), .single (.music .play (some "a.ogg")),
          .single (.music .play (some "b.ogg"))]
        assets := .ofList [("a.ogg", "Music/a.ogg"), ("b.ogg", "Music/b.ogg")] }
    ∃ (deeds : List Deed) (s : Session RecordingStage),
      ContinuesWithin Operation.SparesMusic game (.ofStage rehearsalStage) deeds s ∧
      s.stage.sound.switches = [true, false] ∧ s.currentMusic = some "b.ogg" ∧
      s.stage.sound.music = (if s.musicActive then s.currentMusic else none) := by
  intro game
  let fail (keys : List String) (p : RecordingStage) : RecordingStage :=
    { p with sound := { p.sound with failing := keys } }
  have succeeds : (((Session.ofStage rehearsalStage).start game).bind fun s =>
      (s.onStage (fail ["b.ogg"])).runUntil game 1000 4).any (fun s =>
        s.stage.sound.switches == [true, false] && s.currentMusic == some "b.ogg") = true := by
    decide +kernel
  obtain ⟨s, result, shown⟩ := (Option.any_eq_true _ _).1 succeeds
  obtain ⟨s₁, started, rest⟩ := Option.bind_eq_some_iff.1 result
  rw [Bool.and_eq_true, beq_iff_eq, beq_iff_eq] at shown
  have plays : ContinuesWithin Operation.SparesMusic game (.ofStage rehearsalStage) _ s :=
    ((ContinuesWithin.refl.operation .start trivial started).operation (.stage (fail ["b.ogg"]))
      (fun p => ⟨rfl, rfl⟩) rfl).operation (.runUntil 1000 4) trivial rest
  exact ⟨_, s, plays, shown.1, shown.2, (music_mirrors_the_stage game rfl rfl plays).1⟩

end VisualNovel
