import VisualNovel.Proofs.Review.Course
import VisualNovel.Proofs.Session.Lookups
import VisualNovel.Review.Assets
import VisualNovel.Review.Config

/-!
# What a review of the assets is good for

A review goes through the script and asks for the assets of each cue. If it has nothing to say, playback
finds whatever it needs, in each run, with one exception: nobody asks for the blip of intro cards.

* `Covered`                  the review has found everything that a cue needs;
* `covered_of_clean`         it has for each cue of the script if it has nothing to say;
* `Session.Supplied`         what is under way has its assets;
* `Session.Path.supplied`    playback keeps it so;
* `lookups_succeed`          what this means for the history of a playback.
-/

set_option linter.unusedSectionVars false

namespace VisualNovel

open Session Review

/-! ## The review -/

theorem Script.mem_walk {script : Script} {place : Nat} {event : Event} {cue : Cue}
    (found : script.events[place]? = some event) (m : cue ∈ event.cues) :
    (place, .single cue) ∈ script.walk := by
  have among : (event, place) ∈ script.events.toList.zipIdx := by
    rw [List.mem_zipIdx_iff_getElem?, Array.getElem?_toList]
    exact found
  refine List.mem_flatMap.2 ⟨(event, place), among, ?_⟩
  cases event with
  | single other =>
    cases List.mem_singleton.1 m
    exact List.mem_singleton_self _
  | together cues => exact List.mem_cons_of_mem _ (List.mem_map_of_mem m)

/-- the review has found everything that the cue needs -/
structure Covered (game : Game) (cue : Cue) : Prop where
  assets : ∀ use name, (use, name) ∈ assetUses game false (.single cue) →
    game.assets.contains name = true
  view : unknownView? game (.single cue) = none
  blip : isDialogue (.single cue) = true → game.assets.contains game.config.audio.defaultBlip = true

variable {game : Game}

theorem covered_of_clean (clean : assetIssues game false = []) {place : Nat} {cue : Cue}
    (m : (place, .single cue) ∈ game.script.walk) : Covered game cue := by
  rw [assetIssues, List.append_eq_nil_iff, List.append_eq_nil_iff] at clean
  obtain ⟨⟨missing, views⟩, blips⟩ := clean
  refine ⟨fun use name used => ?_, ?_, fun line => ?_⟩
  · have none := List.map_eq_nil_iff.1 (List.flatMap_eq_nil_iff.1 missing _ m)
    simpa using List.filter_eq_nil_iff.1 none _ used
  · exact Option.map_eq_none_iff.1 (List.filterMap_eq_nil_iff.1 views _ m)
  · have spoken : (game.script.walk.any fun x => isDialogue x.2) = true :=
      List.any_eq_true.2 ⟨_, m, line⟩
    by_contra absent
    simp [blipIssues, spoken, absent] at blips

/-! ## Cues -/

/-- a lookup that is needed is found, unless it is the blip of an intro card -/
def Lookup.Settled (game : Game) (lookup : Lookup) : Prop :=
  lookup.required = true →
    lookup.isCardBlip = false ∧ lookup.found game = true ∨
      lookup = .cardBlip (game.soundKey game.config.audio.introBlip)

namespace Lookup

theorem Settled.asset {key : String} (h : game.assets.contains key = true) :
    (Lookup.asset key).Settled game :=
  fun _ => .inl ⟨rfl, h⟩

theorem Settled.of_optional {lookup : Lookup} (h : lookup.required = false) : lookup.Settled game :=
  fun needed => absurd (h.symm.trans needed) nofun

theorem Settled.card {card : CardReveal} {lookup : Lookup} (m : lookup ∈ cardLookups game card) :
    lookup.Settled game :=
  fun needed => .inr (card_of_required m needed)

end Lookup

theorem contains_soundKey {name : String}
    (h : game.assets.contains name = true ∨
      namesBlip name = true ∧ game.assets.contains game.config.audio.defaultBlip = true) :
    game.assets.contains (game.soundKey name) = true := by
  unfold Game.soundKey
  cases own : game.assets.contains name with
  | true => simp [own]
  | false =>
    obtain ⟨blip, default⟩ := h.resolve_left (by simp [own])
    simp [blip, default]

theorem contains_blipFor (speaker : Option String)
    (h : game.assets.contains game.config.audio.defaultBlip = true) :
    game.assets.contains (blipFor game.assets game.config.audio speaker) = true := by
  unfold blipFor
  split
  · split
    · assumption
    · exact h
  · exact h

namespace Covered

variable {cue : Cue}

theorem picture {use : AssetUse} {name : String}
    (h : ∀ x, x ∈ backgroundUse use name → game.assets.contains x.2 = true) {lookup : Lookup}
    (m : lookup ∈ pictureLookups name) : lookup.Settled game := by
  unfold pictureLookups at m
  unfold backgroundUse at h
  split at m
  · cases m
  · rename_i picture
    rw [if_neg picture] at h
    rw [List.mem_singleton.1 m]
    exact .asset (h _ (List.mem_singleton_self _))

theorem view_settled {name : String} (h : Covered game (.view name)) {lookup : Lookup}
    (m : lookup ∈ viewLookups game name) : lookup.Settled game := by
  have known : game.config.views.contains name = true := by simpa [unknownView?] using h.view
  rcases List.mem_cons.1 m with rfl | m
  · exact fun _ => .inl ⟨rfl, known⟩
  · obtain ⟨preset, found⟩ := Option.isSome_iff_exists.1 known
    have assets := h.assets
    simp only [assetUses, found] at assets
    rw [found] at m
    rcases List.mem_append.1 m with background | desk
    · exact picture (fun x m => assets x.1 x.2 (List.mem_append_left _ m)) background
    · obtain ⟨key, named, rfl⟩ := List.mem_map.1 desk
      exact .asset (assets .viewDesk key (List.mem_append_right _ (List.mem_map_of_mem named)))

theorem sound_settled {name : String} (h : Covered game (.sound name)) {lookup : Lookup}
    (m : lookup ∈ soundLookups game .asset name) : lookup.Settled game := by
  have key : game.assets.contains (game.soundKey name) = true := by
    refine contains_soundKey ?_
    by_cases blip : (namesBlip name && game.assets.contains game.config.audio.defaultBlip) = true
    · exact .inr (Bool.and_eq_true_iff.1 blip)
    · refine .inl (h.assets .sound name ?_)
      rw [assetUses, if_neg blip]
      exact List.mem_singleton_self _
  intro needed
  rw [sound_of_required m needed]
  exact .inl ⟨rfl, key⟩

theorem settled {σ : Type} (h : Covered game cue) {s : Session σ} {lookup : Lookup}
    (m : lookup ∈ s.cueLookups game cue) : lookup.Settled game := by
  have named (use : AssetUse) {key : String} (used : (use, key) ∈ assetUses game false (.single cue))
      (m : lookup ∈ [Lookup.asset key]) : lookup.Settled game := by
    rw [List.mem_singleton.1 m]
    exact .asset (h.assets use key used)
  cases cue with
  | background name => exact picture (fun x m => h.assets x.1 x.2 m) m
  | view name => exact h.view_settled m
  | music action name =>
    cases action with
    | play =>
      cases name with
      | none => cases m
      | some name =>
        simp only [cueLookups] at m
        split at m
        · cases m
        · exact named .music (List.mem_singleton_self _) m
    | _ => cases m
  | sound name => exact h.sound_settled m
  | character name action =>
    cases name with
    | none => cases m
    | some name =>
      cases action with
      | hide => cases m
      | _ => exact named .character List.mem_cons_self m
  | video name => exact named .video (List.mem_singleton_self _) m
  | introCard lines => exact .card m
  | _ => cases m

end Covered

/-! ## What is under way -/

namespace Session

variable {σ : Type}

structure Supplied (game : Game) (s : Session σ) : Prop where
  line : s.reveal.isRevealing = true → game.assets.contains game.config.audio.defaultBlip = true
  frames : ∀ book ∈ s.flipbook, ∀ frame ∈ book.frames, game.assets.contains frame = true

theorem supplied_new (stage : σ) : (Session.ofStage stage).Supplied game := ⟨nofun, nofun⟩

variable {s s' : Session σ}

/-- the character and the picture that come next are supplied -/
theorem Supplied.settled (h : s.Supplied game) {kind : TimerKind} {lookup : Lookup}
    (m : lookup ∈ s.timerLookups game kind) : lookup.Settled game := by
  cases kind with
  | typeTick =>
    simp only [timerLookups, lineLookups] at m
    cases r : s.reveal with
    | idle | done =>
      rw [r] at m
      cases m
    | revealing line n =>
      have default := h.line (by rw [r]; rfl)
      rw [r] at m
      dsimp only at m
      split at m
      · exact .of_optional (required_of_mem_talkLookups m)
      · split at m
        · rcases List.mem_append.1 m with blip | talk
          · intro needed
            rw [blip_of_required blip needed]
            exact .inl ⟨rfl, contains_blipFor line.speaker default⟩
          · exact .of_optional (required_of_mem_talkLookups talk)
        · cases m
  | cardTick =>
    simp only [timerLookups] at m
    cases shown : s.card with
    | none =>
      rw [shown] at m
      cases m
    | some card =>
      rw [shown] at m
      exact .card m
  | frame =>
    simp only [timerLookups] at m
    cases shown : s.flipbook with
    | none =>
      rw [shown] at m
      cases m
    | some book =>
      rw [shown] at m
      obtain ⟨frame, first, rfl⟩ := List.mem_map.1 m
      have next : frame ∈ book.frames := List.mem_of_mem_head? (Option.mem_toList.1 first)
      exact .asset (h.frames book shown frame next)
  | advance | videoPoll | videoCheck => cases m

variable [Presentation σ] [Audio σ]

theorem Supplied.execute {cue : Cue} (h : s.Supplied game) (covered : Covered game cue) :
    (s.execute game cue).2.Supplied game := by
  have outcome := execute_outcome game cue s
  generalize (s.execute game cue).1 = flow at outcome
  generalize (s.execute game cue).2 = s' at outcome ⊢
  cases outcome with
  | quiet _ d =>
    obtain ⟨_, _, _, _, rfl⟩ := d
    exact ⟨h.line, h.frames⟩
  | line line => exact ⟨fun _ => covered.blip rfl, h.frames⟩
  | sequence frames fps keepLast scene delay =>
    refine ⟨h.line, fun book shown frame m => ?_⟩
    cases shown
    exact covered.assets .frame frame (List.mem_map_of_mem m)
  | _ => exact ⟨h.line, h.frames⟩

theorem Supplied.nextFrame (h : s.Supplied game) : (s.nextFrame game).session.Supplied game := by
  unfold Session.nextFrame
  split
  · exact h
  · rename_i frame frames interval keepLast shown
    have rest : ∀ book ∈ some (Flipbook.mk frames interval keepLast), ∀ frame ∈ book.frames,
        game.assets.contains frame = true := by
      intro book isBook next m
      cases isBook
      exact h.frames _ shown next (List.mem_cons_of_mem _ m)
    dsimp only
    split
    · exact ⟨h.line, rest⟩
    · exact ⟨h.line, rest⟩
  · dsimp only
    split
    · exact ⟨h.line, nofun⟩
    · exact ⟨h.line, nofun⟩

theorem Supplied.completeLine {scene : Scene σ} {line : Line} (h : s.Supplied game)
    (completion : Completion) :
    ({ s with scene := scene, reveal := .done line }.completeLine game completion).Supplied game := by
  cases completion <;> exact ⟨nofun, h.frames⟩

theorem Supplied.fire (h : s.Supplied game) (kind : TimerKind) :
    (s.fire game kind).session.Supplied game := by
  by_cases frame : kind = .frame
  · subst frame
    exact h.nextFrame
  · have fired := fire_fired game kind s
    generalize s.fire game kind = turn at fired ⊢
    cases fired with
    | typed revealing => exact ⟨fun _ => h.line (by rw [revealing]; rfl), h.frames⟩
    | lineDone _ scene completion => exact h.completeLine completion
    | noFrames | frame | framesDone => exact absurd rfl frame
    | _ => exact ⟨h.line, h.frames⟩

theorem Step.supplied {more : List (Deed × Session σ)} (step : s.Step game more s')
    (covered : ∀ entry ∈ more, ∀ cue, entry.1 = .does cue → Covered game cue)
    (h : s.Supplied game) : s'.Supplied game := by
  rcases step.does_or_fires with ⟨cue, rfl, rfl⟩ | ⟨timer, timers, -, rfl⟩ | stirred
  · exact h.execute (covered _ (List.mem_singleton_self _) cue rfl)
  · have left : Supplied game { s with timers := timers } := ⟨h.line, h.frames⟩
    exact left.fire timer.kind
  · cases stirred with
    | moved | chosen => exact ⟨h.line, h.frames⟩
    | skipped scene line completion => exact h.completeLine completion

theorem Path.supplied {s₀ : Session σ} {entries : List (Deed × Session σ)}
    (way : Path game s₀ entries s)
    (covered : ∀ entry ∈ entries, ∀ cue, entry.1 = .does cue → Covered game cue)
    (h₀ : s₀.Supplied game) : s.Supplied game :=
  way.keeps (P := Supplied game) (fun step covered kept => step.supplied covered kept) covered h₀

end Session

/-! ## Playback -/

variable {σ : Type} [Presentation σ] [Audio σ]

/-- each cue that playback carries out is covered if the review has nothing to say -/
theorem Recalls.covered (clean : assetIssues game false = []) {stage : σ}
    {entries : List (Deed × Session σ)} {turn : Turn σ} (h : Recalls game (.ofStage stage) entries turn)
    {entry : Deed × Session σ} (m : entry ∈ entries) {cue : Cue} (does : entry.1 = .does cue) :
    Covered game cue := by
  have done : .does cue ∈ entries.map Prod.fst := List.mem_map.2 ⟨entry, m, does⟩
  obtain ⟨place, -, event, found, m⟩ := (h.reaches.inBlocks rfl).of_mem_does done
  exact covered_of_clean clean (Script.mem_walk found m)

/-- what playback looks up is found if the review has nothing to say -/
theorem Recalls.settled (clean : assetIssues game false = []) {stage : σ}
    {entries : List (Deed × Session σ)} {turn : Turn σ} (h : Recalls game (.ofStage stage) entries turn)
    {entry : Deed × Session σ} (m : entry ∈ entries) {lookup : Lookup}
    (m' : lookup ∈ lookups game entry) : lookup.Settled game := by
  obtain ⟨deed, s⟩ := entry
  cases deed with
  | takes place => cases m'
  | does cue => exact (h.covered clean m rfl).settled m'
  | fires timer =>
    obtain ⟨before, after, rfl⟩ := List.append_of_mem m
    obtain ⟨s₁, limit, way, -, e, -⟩ := h.path.at_fires
    have supplied : s₁.Supplied game :=
      way.supplied (fun _ m _ does => h.covered clean (List.mem_append_left _ m) does)
        (supplied_new stage)
    have left : s.Supplied game := by
      rw [e]
      exact ⟨supplied.line, supplied.frames⟩
    exact left.settled m'

/-- **Nothing fails that a review of the assets has asked for.** If the review has nothing to say, then
of all that is looked up in a playback, and that has nothing to be put in its place, just the blips of
intro cards are not found, and those only if there is no asset for them. That this is all that is looked
up: with any other assets that give the same answers to it, the same is done. -/
theorem lookups_succeed (game : Game) (clean : assetIssues game ({} : AssetRules).checkTalking = [])
    {stage : σ} {entries : List (Deed × Session σ)} {turn : Turn σ}
    (h : Recalls game (.ofStage stage) entries turn) :
    ∀ entry ∈ entries,
      (∀ lookup ∈ lookups game entry, lookup.required = true →
        (lookup.found game = false ↔ lookup.isCardBlip = true ∧
          game.assets.contains (game.soundKey game.config.audio.introBlip) = false)) ∧
      ∀ assets, game.Agrees assets (lookups game entry) →
        entry.1.leadsTo (game.withAssets assets) entry.2 = entry.1.leadsTo game entry.2 := by
  intro entry m
  refine ⟨fun lookup m' needed => ?_, fun assets agrees => leadsTo_of_agrees agrees⟩
  rcases h.settled clean m m' needed with ⟨other, found⟩ | rfl
  · rw [other, found]
    exact ⟨nofun, fun blip => nomatch blip.1⟩
  · exact ⟨fun missing => ⟨rfl, missing⟩, fun missing => missing.2⟩

/-- lookups of many kinds; the default blip answers all those for blips -/
theorem lookups_succeed_with_the_default_blip :
    let game : Game :=
      { script := .ofEvents [.single (.background "Court"), .single (.view "judge"),
          .together [.character (some "Mia") .show, .music .play (some "bgm/Trial.ogg")],
          .single (.sound "blip-judge.wav"), .single (.video "Intro.mp4"),
          .single (.dialogue ⟨"Hi", some "Mia", false, true⟩), .single (.introCard ["On"])]
        assets := .ofList [("Court", "bg/Court.png"), ("Judge", "bg/Judge.png"),
          ("Judge_Desk", "bg/Desk.png"), ("Mia", "Mia.png"), ("Trial.ogg", "bgm/Trial.ogg"),
          ("Intro.mp4", "Intro.mp4"), ("blip.wav", "blip.wav")] }
    ∃ (entries : List (Deed × Session RecordingStage)) (s : Session RecordingStage),
      Recalls game (.ofStage {}) entries (.rests s) ∧ s.isFinished game = true ∧
      (entries.flatMap (lookups game)).countP Lookup.required = 12 ∧
      ∀ entry ∈ entries, ∀ lookup ∈ lookups game entry, lookup.required = true →
        lookup.found game = true := by
  intro game
  let os : List (Operation RecordingStage) := [.start, .runUntil 5000 50, .activate]
  let entries := (Session.ofStage {}).recalled game os
  have ends : ((Session.ofStage {}).performAll game os).any
      (fun s : Session RecordingStage => s.isFinished game) = true := by
    decide +kernel
  obtain ⟨s, result, finished⟩ := (Option.any_eq_true _ _).1 ends
  have recalls : Recalls game (.ofStage {}) entries (.rests s) := Recalls.refl.performAll result
  have clean : assetIssues game false = [] := List.isEmpty_iff.1 (by decide +kernel)
  have blip : game.assets.contains (game.soundKey game.config.audio.introBlip) = true := by
    decide +kernel
  refine ⟨entries, s, recalls, finished, by decide +kernel, fun entry m lookup m' needed => ?_⟩
  cases found : lookup.found game with
  | true => rfl
  | false =>
    have missing := (((lookups_succeed game clean recalls entry m).1 lookup m' needed).1 found).2
    exact absurd (blip.symm.trans missing) nofun

/-- an intro card is shown in silence, and the review has nothing to say about it -/
theorem silent_card_is_passed_over :
    let game : Game := { script := .ofEvents [.single (.introCard ["Hi"])] }
    assetIssues game ({} : AssetRules).checkTalking = [] ∧
    ∃ (entries : List (Deed × Session RecordingStage)) (s : Session RecordingStage),
      Recalls game (.ofStage {}) entries (.rests s) ∧ s.isFinished game = true ∧
      (∃ entry ∈ entries, ∃ lookup ∈ lookups game entry,
        lookup.required = true ∧ lookup.found game = false) ∧
      s.stage.sound.sounds = [] := by
  intro game
  let os : List (Operation RecordingStage) := [.start, .runUntil 2000 10, .activate]
  let entries := (Session.ofStage {}).recalled game os
  have ends : ((Session.ofStage {}).performAll game os).any (fun s : Session RecordingStage =>
      s.isFinished game && s.stage.sound.sounds.isEmpty) = true := by
    decide +kernel
  have fails : entries.any (fun entry => (lookups game entry).any
      fun lookup => lookup.required && !lookup.found game) = true := by
    decide +kernel
  obtain ⟨s, result, shown⟩ := (Option.any_eq_true _ _).1 ends
  obtain ⟨entry, m, fails⟩ := List.any_eq_true.1 fails
  obtain ⟨lookup, m', fails⟩ := List.any_eq_true.1 fails
  rw [Bool.and_eq_true, List.isEmpty_iff] at shown
  rw [Bool.and_eq_true, Bool.not_eq_true'] at fails
  have recalls : Recalls game (.ofStage {}) entries (.rests s) := Recalls.refl.performAll result
  exact ⟨rfl, entries, s, recalls, shown.1, ⟨entry, m, lookup, m', fails⟩, shown.2⟩

end VisualNovel
