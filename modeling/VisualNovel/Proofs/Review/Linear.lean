import VisualNovel.Proofs.Review.Course
import VisualNovel.Proofs.Review.Straight
import VisualNovel.Proofs.Session.End
import VisualNovel.Proofs.Session.Thread
import VisualNovel.Proofs.Stage.Music
import VisualNovel.Review.Quality

/-!
# What depends on the order of events

A script without jumps, whose options lead nowhere else, is played from its first event to its last,
each cue once. A review goes through it in the same order. So what it finds out about the order of
events is what happens: a wait for a video that is found to come before any video finds none, and music
that is found to play already is not started again. Only a cue to play music that names none is passed
over on both sides.

* `Script.Linear`            a script without jumps and without options that lead anywhere;
* `Script.Linear.places_of_finished`   it is played from its first event to its last;
* `Script.cues`              all cues of a script, with their places;
* `Session.startsMusic`     whether a cue to play music starts any;
* `timing_of_threads`, `music_of_threads`   what the review finds out goes with what is handed on;
* `findings_come_true`       what this means for a playback that has come to its end.
-/

set_option linter.unusedSectionVars false

namespace VisualNovel

open Session Review

/-! ## Linear scripts -/

def Cue.isLinear : Cue → Bool
  | jump _ => false
  | choice options => options.all (·.target.isNone)
  | _ => true

/-- no jumps, and no options that lead anywhere, in blocks or out of them -/
def Script.Linear (script : Script) : Prop :=
  ∀ event ∈ script.events.toList, ∀ cue ∈ event.cues, cue.isLinear = true

instance (script : Script) : Decidable script.Linear :=
  inferInstanceAs <| Decidable <|
    ∀ event ∈ script.events.toList, ∀ cue ∈ event.cues, cue.isLinear = true

namespace Script.Linear

variable {script : Script} (linear : script.Linear)

theorem target_eq_none {options : List ChoiceOption} (h : (Cue.choice options).isLinear = true)
    {option : ChoiceOption} (m : option ∈ options) : option.target = none :=
  Option.isNone_iff_eq_none.1 (List.all_eq_true.1 h option m)

theorem blockTarget?_eq_none {cues : List Cue} (h : ∀ cue ∈ cues, cue.isLinear = true) :
    blockTarget? script cues = none :=
  VisualNovel.blockTarget?_eq_none script fun target m => nomatch h (.jump target) m

theorem menuTargets_eq_nil {cues : List Cue} (h : ∀ cue ∈ cues, cue.isLinear = true) :
    menuTargets script cues = [] := by
  refine List.flatMap_eq_nil_iff.2 fun cue m => ?_
  have plain := h cue m
  cases cue with
  | choice options =>
    refine List.filterMap_eq_nil_iff.2 fun option among => ?_
    rw [ChoiceOption.place?, target_eq_none plain among, Option.bind_none]
  | _ => rfl

theorem successors_single {cue : Cue} (h : cue.isLinear = true) {p q : Nat}
    (m : q ∈ successors script p (.single cue)) : q = p + 1 := by
  cases cue with
  | jump => cases h
  | choice options =>
    cases options with
    | nil => exact List.mem_singleton.1 m
    | cons option options =>
      rcases List.mem_append.1 m with led | next
      · obtain ⟨target, among, -⟩ := List.mem_map.1 led
        obtain ⟨other, among, leads⟩ := List.mem_filterMap.1 among
        rw [target_eq_none h among] at leads
        cases leads
      · split at next
        · exact List.mem_singleton.1 next
        · cases next
  | _ => exact List.mem_singleton.1 m

theorem successors_together {cues : List Cue} (h : ∀ cue ∈ cues, cue.isLinear = true) {p q : Nat}
    (m : q ∈ successors script p (.together cues) ++ menuTargets script cues) : q = p + 1 := by
  rw [menuTargets_eq_nil h, List.append_nil, successors, blockTarget?_eq_none h] at m
  exact List.mem_singleton.1 m

theorem last_of_range {places : List Nat} {place : Nat}
    (h : places ++ [place] = List.range (places ++ [place]).length) : place = places.length := by
  rw [List.length_append, List.length_singleton, List.range_succ] at h
  exact List.head_eq_of_cons_eq (List.append_inj_right' h rfl)

include linear

theorem cues_at {event : Event} {p : Nat} (found : script.events[p]? = some event) :
    ∀ cue ∈ event.cues, cue.isLinear = true := by
  obtain ⟨lt, rfl⟩ := Array.getElem?_eq_some_iff.1 found
  exact linear _ (Array.getElem_mem_toList lt)

theorem follows {p q : Nat} (follows : Follows script p q) : q = p + 1 := by
  obtain ⟨event, found, m | ⟨cues, rfl, m⟩⟩ := follows
  · have plain := linear.cues_at found
    cases event with
    | single cue => exact successors_single (plain cue List.mem_cons_self) m
    | together cues => exact successors_together plain (List.mem_append_left _ m)
  · exact successors_together (linear.cues_at found) (List.mem_append_right _ m)

theorem stands {p position : Nat} {event : Event} {done held : List Cue}
    {menu : Option (List ChoiceOption)} (found : script.events[p]? = some event)
    (split : event.cues = done ++ held) (stands : Stands script p event done menu position) :
    position = p + 1 := by
  have plain := linear.cues_at found
  cases stands with
  | asks => rfl
  | past h => exact successors_single (plain _ List.mem_cons_self) h
  | block _ h =>
    refine successors_together (fun cue m => plain cue ?_) h
    rw [split]
    exact List.mem_append_left _ m

theorem places_eq {places : List Nat} (chain : places.IsChain (Follows script))
    (first : ∀ p ∈ places.head?, p = 0) : places = List.range places.length := by
  induction places using List.reverseRecOn with
  | nil => rfl
  | append_singleton places q ih =>
    cases places using List.reverseRecOn with
    | nil =>
      cases first q rfl
      rfl
    | append_singleton places p =>
      rw [List.append_assoc, List.singleton_append, List.isChain_append_cons_cons] at chain
      obtain ⟨before, next, -⟩ := chain
      have head : (places ++ [p] ++ [q]).head? = (places ++ [p]).head? := by
        cases places <;> rfl
      rw [head] at first
      have earlier := ih before first
      rw [List.length_append, List.length_singleton, List.range_succ, ← earlier, linear.follows next,
        last_of_range earlier, List.length_append, List.length_singleton]

end Script.Linear

variable {σ : Type} [Presentation σ] [Audio σ] {game : Game}

theorem Script.Linear.places_of_finished (linear : game.script.Linear) {stage : σ} {deeds : List Deed}
    {s : Session σ} (h : Reaches game (.ofStage stage) deeds (.rests s))
    (finished : s.isFinished game = true) :
    placesIn deeds = List.range game.script.size := by
  obtain ⟨-, size, -⟩ := isFinished_iff.1 finished
  have inside := (h.inBlocks rfl).inside
  have course := h.onCourse (inStep_new stage) (inMode_new stage) (onCourse_new _ stage)
  obtain ⟨chain, first⟩ := course.chain
  have places := linear.places_eq chain first
  rw [Turn.session_rests] at course
  generalize placesIn deeds = taken at course places inside ⊢
  generalize s.deferred = held at course
  generalize s.menu? = menu at course
  generalize s.position = position at course size
  cases course with
  | start => rw [Nat.le_zero.1 size, List.range_zero]
  | @after earlier place _ _ _ _ _ _ _ found split stands =>
    have lt : place < game.script.size :=
      inside place (List.mem_append_right _ (List.mem_singleton_self _))
    have next : position = place + 1 := linear.stands found split stands
    have last : place = earlier.length := Script.Linear.last_of_range places
    have all : game.script.size = earlier.length + 1 := by omega
    rw [all]
    rw [List.length_append, List.length_singleton] at places
    exact places

/-! ## The cues of a script -/

/-- the cue, unless the event is a block -/
def cue? : Nat × Event → Option (Nat × Cue)
  | (place, .single cue) => some (place, cue)
  | (_, .together _) => none

theorem cue?_single (place : Nat) (cue : Cue) : cue? (place, .single cue) = some (place, cue) := rfl

/-- all cues of a script in order, in blocks or out of them, with their places -/
def Script.cues (script : Script) : List (Nat × Cue) := script.walk.filterMap cue?

theorem flatMap_zipIdx_eq {α β : Type} (l : List α) (f : α → Nat → List β) :
    (l.zipIdx.flatMap fun x => f x.1 x.2) =
      (List.range l.length).flatMap fun n => l[n]?.elim [] fun a => f a n := by
  induction l using List.reverseRecOn with
  | nil => rfl
  | append_singleton l a ih =>
    have before : ∀ n ∈ List.range l.length,
        ((l ++ [a])[n]?.elim [] fun a => f a n) = l[n]?.elim [] fun a => f a n := by
      intro n m
      rw [List.getElem?_append_left (List.mem_range.1 m)]
    rw [List.zipIdx_append, List.flatMap_append, ih, List.length_append, List.length_singleton,
      List.range_succ, List.flatMap_append, List.flatMap_congr before]
    simp

theorem Script.cues_eq (script : Script) :
    script.cues = (List.range script.size).flatMap fun n =>
      (script.events[n]?.elim [] Event.cues).map (n, ·) := by
  have whole : script.cues =
      script.events.toList.zipIdx.flatMap fun x => x.1.cues.map (x.2, ·) := by
    rw [Script.cues, Script.walk, List.filterMap_flatMap]
    congr 1
    funext ⟨event, n⟩
    cases event with
    | single cue => rfl
    | together cues =>
      rw [List.filterMap_cons_none rfl, List.filterMap_map]
      exact congrFun (List.filterMap_eq_map (f := (n, ·))) cues
  rw [whole, flatMap_zipIdx_eq _ fun (event : Event) n => event.cues.map (n, ·), Script.size,
    Array.length_toList]
  congr 1
  funext n
  rw [Array.getElem?_toList]
  cases script.events[n]? <;> rfl

/-- each cue of a linear script has been carried out once, in order, once playback is finished -/
theorem Script.Linear.executions_of_finished (linear : game.script.Linear) {stage : σ}
    {entries : List (Deed × Session σ)} {s : Session σ}
    (h : Recalls game (.ofStage stage) entries (.rests s)) (finished : s.isFinished game = true) :
    (executions 0 entries).map (fun x => (x.1, x.2.1)) = game.script.cues := by
  have none : s.deferred = [] := (isFinished_iff.1 finished).2.2.2.2
  have whole := (h.reaches.inBlocks rfl).whole
  rw [Turn.session_rests, none, List.map_nil, List.append_nil,
    linear.places_of_finished h.reaches finished] at whole
  rw [map_executions, ← placed_actsIn, whole, placed_visits, Script.cues_eq]

/-! ## Waits for a video -/

/-- the issue is about a wait for a video before there is any -/
def Issue.isEarlyWait (issue : Issue) : Bool :=
  match issue.finding with
  | .waitBeforeVideo => true
  | _ => false

/-- what there is to say about an execution that waits for a video and finds none -/
def earlyWait? : Nat × Cue × Session σ → Option Issue
  | (place, .waitVideo _, s) =>
    if s.videoGeneration = 0 then some ⟨.waitBeforeVideo, some place⟩ else none
  | _ => none

theorem timing_of_threads {events : List (Nat × Event)} {xs : List (Nat × Cue × Session σ)}
    {n m : Nat} (same : xs.map (fun x => (x.1, x.2.1)) = events.filterMap cue?)
    (threads : Threads game videoGeneration n xs m) :
    (timingFrom (decide (n ≠ 0)) events).filter Issue.isEarlyWait = xs.filterMap earlyWait? := by
  induction events generalizing xs n with
  | nil =>
    rw [List.map_eq_nil_iff.1 same]
    rfl
  | cons first events ih =>
    obtain ⟨place, event⟩ := first
    cases event with
    | together cues => exact ih same threads
    | single cue =>
      rw [List.filterMap_cons_some (cue?_single place cue)] at same
      obtain ⟨⟨place, cue, s⟩, xs, rfl, this, rest⟩ := List.map_eq_cons_iff.1 same
      obtain ⟨rfl, rfl⟩ := Prod.mk.inj this
      obtain ⟨rfl, threads⟩ := threads
      have later := ih rest threads
      rw [generation_execute] at later
      cases cue with
      | video name => exact later
      | waitVideo seconds =>
        simp only [timingFrom]
        by_cases none : s.videoGeneration = 0
        · have early : earlyWait? (place, .waitVideo seconds, s) =
              some ⟨.waitBeforeVideo, some place⟩ := if_pos none
          rw [List.filterMap_cons_some early, ← later]
          simp [none, List.filter_cons, Issue.isEarlyWait]
        · have late : earlyWait? (place, .waitVideo seconds, s) = Option.none := if_neg none
          rw [List.filterMap_cons_none late, ← later]
          simp [none]
      | wait seconds | sequence =>
        simp only [timingFrom, List.filter_append]
        rw [List.filterMap_cons_none rfl, ← later]
        split <;> rfl
      | _ => exact later

/-! ## Music -/

namespace Session

/-- a cue to play the music starts it: it is not heard yet, there is an asset, and the stage plays it -/
def startsMusic (game : Game) (name : String) (s : Session σ) : Bool :=
  s.heard? != some (musicKey name) &&
    (game.assets.get? (musicKey name)).any fun locator =>
      (Audio.playMusic s.stopMusic.stage (musicKey name) locator game.config.audio.musicVolume).1

theorem heard_of_sameMusic {R : σ → σ → Prop} {s s' : Session σ} (h : SameMusic R s s') :
    s'.heard? = s.heard? := by
  rw [heard?, h.active, h.current, heard?]

theorem heard_quiet {s s' : Session σ} {more : List (Deed × Session σ)}
    (step : s.Step game more s') (noCue : executions 0 more = []) : s'.heard? = s.heard? := by
  cases step with
  | takes | unholds | holds | drops | clock | stage => rfl
  | does => cases noCue
  | @fires _ _ timer timers =>
    have same (s : Session σ) : (s.fire game timer.kind).session.heard? = s.heard? :=
      heard_of_sameMusic (SameMusic.fire .trivial timer.kind s)
    exact same { s with timers := timers }
  | opens => exact heard_of_sameMusic (SameMusic.opened .trivial s)
  | presses => exact heard_of_sameMusic (SameMusic.pressed .trivial s)
  | chooses index => exact heard_of_sameMusic (SameMusic.chosen .trivial index s)

theorem heard_eq_some_iff {s : Session σ} {key : String} :
    s.heard? = some key ↔ (s.musicActive && s.currentMusic == some key) = true := by
  rw [heard?]
  cases s.musicActive <;> simp

/-- music that a cue starts, or that has been heard before it, is heard after it -/
theorem heard_play {s : Session σ} {name : String}
    (h : s.heard? = some (musicKey name) ∨ s.startsMusic game name = true) :
    (s.execute game (.music .play (some name))).2.heard? = some (musicKey name) := by
  show (s.playMusic game name).heard? = some (musicKey name)
  by_cases heard : s.heard? = some (musicKey name)
  · have again := heard_eq_some_iff.1 heard
    unfold playMusic
    dsimp only
    rw [if_pos again]
    split
    · exact heard
    · exact heard
  · have starts := h.resolve_left heard
    rw [startsMusic, Bool.and_eq_true] at starts
    obtain ⟨locator, found, plays⟩ := (Option.any_eq_true _ _).1 starts.2
    have other := fun again => heard (heard_eq_some_iff.2 again)
    unfold playMusic
    dsimp only
    rw [if_neg other, found]
    show (if (Audio.playMusic s.stopMusic.stage _ locator _).1 then some (musicKey name) else none) = _
    rw [plays, if_pos rfl]

end Session

/-- what there is to say about an execution that is to play music and starts none -/
def repeatedPlay? (game : Game) : Nat × Cue × Session σ → Option Issue
  | (place, .music .play (some name), s) =>
    if s.startsMusic game name then none else some ⟨.repeatedMusic (musicKey name), some place⟩
  | _ => none

theorem music_of_threads {events : List (Nat × Event)} {xs : List (Nat × Cue × Session σ)}
    {current last : Option String}
    (same : xs.map (fun x => (x.1, x.2.1)) = events.filterMap cue?)
    (threads : Threads game heard? current xs last)
    (starts : ∀ place name (s : Session σ), (place, .music .play (some name), s) ∈ xs →
      s.heard? ≠ some (musicKey name) → s.startsMusic game name = true) :
    musicFrom current events = xs.filterMap (repeatedPlay? game) := by
  induction events generalizing xs current with
  | nil =>
    rw [List.map_eq_nil_iff.1 same]
    rfl
  | cons first events ih =>
    obtain ⟨place, event⟩ := first
    cases event with
    | together cues => exact ih same threads starts
    | single cue =>
      rw [List.filterMap_cons_some (cue?_single place cue)] at same
      obtain ⟨⟨place, cue, s⟩, xs, rfl, this, rest⟩ := List.map_eq_cons_iff.1 same
      obtain ⟨rfl, rfl⟩ := Prod.mk.inj this
      obtain ⟨rfl, threads⟩ := threads
      have later := ih rest threads fun place name s m => starts place name s (List.mem_cons_of_mem _ m)
      cases cue with
      | music action name =>
        cases action with
        | play =>
          cases name with
          | none => exact later
          | some name =>
            simp only [musicFrom]
            by_cases heard : s.heard? = some (musicKey name)
            · rw [heard_play (.inl heard)] at later
              have repeated : repeatedPlay? game (place, .music .play (some name), s) =
                  some ⟨.repeatedMusic (musicKey name), some place⟩ := by
                simp [repeatedPlay?, startsMusic, heard]
              rw [List.filterMap_cons_some repeated, ← later, heard]
              simp
            · have started := starts place name s List.mem_cons_self heard
              rw [heard_play (.inr started)] at later
              have none : repeatedPlay? game (place, .music .play (some name), s) = Option.none := by
                simp [repeatedPlay?, started]
              rw [List.filterMap_cons_none none, ← later]
              simp [heard]
        | pause | resume | stop => exact later
      | _ =>
        rw [heard_of_sameMusic (SameMusic.execute .trivial rfl s)] at later
        exact later

/-! ## Finished playbacks -/

/-- **On a script that runs on from event to event, what a review says about the order of events comes
true.** Once such a script has been played to its end, the waits for a video that are reported to come
before any video are those that have found none, one by one with their places. If all music that is to
be played has an asset, and the stage plays it whenever it is asked to, then the music that is reported
to play already is that of the cues that have named some and started none. -/
theorem findings_come_true (game : Game) (linear : game.script.Linear) {stage : σ}
    {entries : List (Deed × Session σ)} {s : Session σ}
    (h : Recalls game (.ofStage stage) entries (.rests s)) (finished : s.isFinished game = true) :
    (timingIssues game.script).filter Issue.isEarlyWait =
      (executions 0 entries).filterMap earlyWait? ∧
    ((∀ place name, (place, .music .play (some name)) ∈ game.script.cues →
        game.assets.contains (musicKey name) = true) →
      (∀ place name (s : Session σ), (place, .music .play (some name), s) ∈ executions 0 entries →
        s.heard? ≠ some (musicKey name) → ∀ locator, game.assets.get? (musicKey name) = some locator →
          (Audio.playMusic s.stopMusic.stage (musicKey name) locator
            game.config.audio.musicVolume).1 = true) →
      musicIssues game.script = (executions 0 entries).filterMap (repeatedPlay? game)) := by
  have same : (executions 0 entries).map (fun x => (x.1, x.2.1)) = game.script.walk.filterMap cue? :=
    linear.executions_of_finished h finished
  refine ⟨?_, fun known accepted => ?_⟩
  · have handed : Threads game videoGeneration 0 (executions 0 entries) s.videoGeneration :=
      h.path.threads generation_quiet 0
    exact timing_of_threads same handed
  · have handed : Threads game heard? none (executions 0 entries) s.heard? :=
      h.path.threads heard_quiet 0
    refine music_of_threads same handed fun place name s m other => ?_
    have written : (place, .music .play (some name)) ∈ game.script.cues := by
      have among := List.mem_map_of_mem (f := fun x => (x.1, x.2.1)) m
      rw [same] at among
      exact among
    obtain ⟨locator, found⟩ := Option.isSome_iff_exists.1 (known place name written)
    have plays := accepted place name s m other locator found
    rw [startsMusic, found, Option.any_some, plays, Bool.and_true, bne_iff_ne]
    exact other

/-- a wait before the video of its own block, and music that is played once more under a longer name -/
theorem findings_come_true_in_blocks :
    let game : Game :=
      { script := .ofEvents [.together [.waitVideo 0, .video "a"], .single (.waitVideo 0),
          .single (.music .play (some "a.ogg")),
          .together [.wait 0, .music .play (some "bgm/a.ogg")], .single (.music .play none)]
        assets := .ofList [("a.ogg", "Music/a.ogg")] }
    ∃ (entries : List (Deed × Session RecordingStage)) (s : Session RecordingStage),
      Recalls game (.ofStage {}) entries (.rests s) ∧ s.isFinished game = true ∧
      (executions 0 entries).filterMap earlyWait? = [⟨.waitBeforeVideo, some 0⟩] ∧
      (executions 0 entries).filterMap (repeatedPlay? game) =
        [⟨.repeatedMusic "a.ogg", some 3⟩] := by
  intro game
  let os : List (Operation RecordingStage) := [.start, .runUntil 1000 20]
  let entries := (Session.ofStage {}).recalled game os
  have ends : ((Session.ofStage {}).performAll game os).any
      (fun s : Session RecordingStage => s.isFinished game) = true := by
    decide +kernel
  have plays : (executions 0 entries).all
      (fun x => x.2.2.stopMusic.stage.sound.failing.isEmpty) = true := by
    decide +kernel
  obtain ⟨s, result, finished⟩ := (Option.any_eq_true _ _).1 ends
  have recalls : Recalls game (.ofStage {}) entries (.rests s) := Recalls.refl.performAll result
  obtain ⟨waits, music⟩ := findings_come_true game (by decide) recalls finished
  refine ⟨entries, s, recalls, finished, waits.symm, ?_⟩
  rw [← music (fun place name m => ?_) fun place name s m _ locator _ => ?_]
  · rfl
  · have cues : game.script.cues = [(0, .waitVideo 0), (0, .video "a"), (1, .waitVideo 0),
        (2, .music .play (some "a.ogg")), (3, .wait 0), (3, .music .play (some "bgm/a.ogg")),
        (4, .music .play none)] := rfl
    have named : place = 2 ∧ name = "a.ogg" ∨ place = 3 ∧ name = "bgm/a.ogg" := by
      simpa [cues] using m
    rcases named with ⟨-, rfl⟩ | ⟨-, rfl⟩ <;> decide +kernel
  · have none := List.isEmpty_iff.1 (List.all_eq_true.1 plays _ m)
    rw [RecordingStage.playMusic_of_plays (by rw [none]; rfl)]

/-- a cue to play music that names none starts none, and nothing is said about it -/
theorem nameless_music_is_passed_over :
    let game : Game := { script := .ofEvents [.single (.music .play none)] }
    ∃ (entries : List (Deed × Session RecordingStage)) (s s' : Session RecordingStage),
      Recalls game (.ofStage {}) entries (.rests s) ∧ s.isFinished game = true ∧
      game.script.Linear ∧ (0, .music .play none, s') ∈ executions 0 entries ∧
      s.stage.sound.musicStarts = 0 ∧ musicIssues game.script = [] := by
  intro game
  refine ⟨_, _, _, Recalls.refl.perform .start rfl, rfl, by decide, List.mem_singleton_self _, rfl, rfl⟩

end VisualNovel
