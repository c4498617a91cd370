import VisualNovel.Proofs.Session.Recall
import VisualNovel.Proofs.Stage.Music

/-!
# What playback looks up

A cue names presets and assets, and so do lines, cards and sequences while timers go through them. What
is looked up is listed here beside each step, and nothing else is: of two asset tables with the same
answers to it, playback makes the same.

* `Lookup`                   a name that is looked up;
* `Lookup.required`          it is needed, and nothing else is tried in its place;
* `cueLookups`, `timerLookups`   what a cue and a timer look up;
* `lookups`                  what an entry of a history looks up;
* `execute_of_agrees`, `fire_of_agrees`, `leadsTo_of_agrees`   nothing else counts.
-/

set_option linter.unusedSectionVars false

namespace VisualNovel

open Session

inductive Lookup
  /-- the preset of a view -/
  | preset (name : String)
  /-- an asset that a cue names, or the blip of a line -/
  | asset (key : String)
  /-- the blip of an intro card -/
  | cardBlip (key : String)
  /-- a blip in whose place the default one may be heard -/
  | ownBlip (key : String)
  /-- the talking sprite of a character, or the idle one, in place of the other -/
  | variant (key : String)
deriving DecidableEq

namespace Lookup

def locator? (assets : AssetTable) : Lookup → Option String
  | preset _ => none
  | asset key | cardBlip key | ownBlip key | variant key => assets.get? key

def found (game : Game) : Lookup → Bool
  | preset name => game.config.views.contains name
  | lookup => (lookup.locator? game.assets).isSome

/-- playback has nothing to put in its place -/
def required : Lookup → Bool
  | preset _ | asset _ | cardBlip _ => true
  | ownBlip _ | variant _ => false

def isCardBlip : Lookup → Bool
  | cardBlip _ => true
  | _ => false

end Lookup

/-! ## Lookups -/

variable (game : Game)

def pictureLookups (name : String) : List Lookup := if isBlack name then [] else [.asset name]

def viewLookups (name : String) : List Lookup :=
  .preset name :: (game.config.views.get? name).elim [] fun preset =>
    pictureLookups preset.background ++ preset.desk.toList.map .asset

/-- a sound may be a blip, for which the default one is heard if it has no asset -/
def soundLookups (use : String → Lookup) (name : String) : List Lookup :=
  (if namesBlip name then [.ownBlip name] else []) ++ [use (game.soundKey name)]

def cardLookups (card : CardReveal) : List Lookup :=
  match card.next with
  | (.char _ _, _) => soundLookups game .cardBlip game.config.audio.introBlip
  | _ => []

def blipLookups (speaker : Option String) : List Lookup :=
  (speaker.bind game.config.audio.speakerBlips.get?).toList.map .ownBlip ++
    [.asset (blipFor game.assets game.config.audio speaker)]

/-- the other sprite of an actor that is chosen by `p` -/
def variant? (suffix : String) (talking : Bool) (p : String → Bool) (actor : Actor) : Option Lookup :=
  let target := talkTarget suffix actor.name talking
  if p actor.name && target != actor.name then some (.variant target) else none

/-- the other sprites of the speaker of a line -/
def talkLookups (line : Line) (talking : Bool) (cast : List Actor) : List Lookup :=
  line.speaker.elim [] fun speaker => cast.filterMap
    (variant? game.config.talkSuffix talking (belongs (keywords speaker game.config.aliases)))

/-- the next character of a line makes a blip and its speaker talk; after the last one, talking ends -/
def lineLookups (reveal : LineReveal) (cast : List Actor) : List Lookup :=
  match reveal with
  | .revealing line n =>
    match line.text.toList[n]? with
    | none => talkLookups game line false cast
    | some c =>
      if c ≠ ' ' && !line.thought then blipLookups game line.speaker ++ talkLookups game line true cast
      else []
  | _ => []

namespace Session

variable {σ : Type}

def cueLookups (cue : Cue) (s : Session σ) : List Lookup :=
  match cue with
  | .background name => pictureLookups name
  | .view name => viewLookups game name
  | .music .play (some name) =>
    if s.heard? = some (musicKey name) then [] else [.asset (musicKey name)]
  | .sound name => soundLookups game .asset name
  | .character (some _) .hide => []
  | .character (some name) _ => [.asset name]
  | .video name => [.asset name]
  | .introCard lines => cardLookups game (.ofLines lines)
  | _ => []

def timerLookups (kind : TimerKind) (s : Session σ) : List Lookup :=
  match kind with
  | .typeTick => lineLookups game s.reveal s.scene.cast
  | .cardTick => s.card.elim [] (cardLookups game)
  | .frame => s.flipbook.elim [] fun book => book.frames.head?.toList.map .asset
  | _ => []

end Session

/-- what an entry of a history looks up -/
def lookups {σ : Type} : Deed × Session σ → List Lookup
  | (.takes _, _) => []
  | (.does cue, s) => s.cueLookups game cue
  | (.fires timer, s) => s.timerLookups game timer.kind

variable {game : Game}

/-! ## What is needed -/

theorem required_of_mem_talkLookups {line : Line} {talking : Bool} {cast : List Actor} {lookup : Lookup}
    (m : lookup ∈ talkLookups game line talking cast) : lookup.required = false := by
  unfold talkLookups at m
  cases speaker : line.speaker with
  | none =>
    rw [speaker] at m
    cases m
  | some name =>
    rw [speaker] at m
    obtain ⟨actor, -, e⟩ := List.mem_filterMap.1 m
    unfold variant? at e
    dsimp only at e
    split at e
    · cases e
      rfl
    · cases e

theorem sound_of_required {use : String → Lookup} {name : String} {lookup : Lookup}
    (m : lookup ∈ soundLookups game use name) (needed : lookup.required = true) :
    lookup = use (game.soundKey name) := by
  rcases List.mem_append.1 m with own | key
  · split at own
    · rw [List.mem_singleton.1 own] at needed
      cases needed
    · cases own
  · exact List.mem_singleton.1 key

theorem card_of_required {card : CardReveal} {lookup : Lookup} (m : lookup ∈ cardLookups game card)
    (needed : lookup.required = true) :
    lookup = .cardBlip (game.soundKey game.config.audio.introBlip) := by
  unfold cardLookups at m
  split at m
  · exact sound_of_required m needed
  · cases m

theorem blip_of_required {speaker : Option String} {lookup : Lookup}
    (m : lookup ∈ blipLookups game speaker) (needed : lookup.required = true) :
    lookup = .asset (blipFor game.assets game.config.audio speaker) := by
  rcases List.mem_append.1 m with own | key
  · obtain ⟨key, -, e⟩ := List.mem_map.1 own
    rw [← e] at needed
    cases needed
  · exact List.mem_singleton.1 key

/-! ## Nothing else is looked up -/

/-- the table has the same answers as that of the game -/
def Game.Agrees (game : Game) (assets : AssetTable) (lookups : List Lookup) : Prop :=
  ∀ lookup ∈ lookups, lookup.locator? assets = lookup.locator? game.assets

/-- the same game with other assets -/
def Game.withAssets (game : Game) (assets : AssetTable) : Game := { game with assets := assets }

section
variable {assets : AssetTable} {ls ls' : List Lookup}

theorem Game.Agrees.left (h : game.Agrees assets (ls ++ ls')) : game.Agrees assets ls :=
  fun lookup m => h lookup (List.mem_append_left _ m)

theorem Game.Agrees.right (h : game.Agrees assets (ls ++ ls')) : game.Agrees assets ls' :=
  fun lookup m => h lookup (List.mem_append_right _ m)

theorem Game.Agrees.asset {key : String} (h : game.Agrees assets [.asset key]) :
    assets.get? key = game.assets.get? key :=
  h (.asset key) (List.mem_singleton_self _)

theorem contains_of_agrees {key : String} (h : game.Agrees assets [.ownBlip key]) :
    assets.contains key = game.assets.contains key :=
  congrArg Option.isSome (h (.ownBlip key) (List.mem_singleton_self _))

/-- the same name is looked up for a sound, and the same is found -/
theorem sound_of_agrees {use : String → Lookup} (name : String)
    (isAsset : ∀ assets key, (use key).locator? assets = Table.get? assets key)
    (h : game.Agrees assets (soundLookups game use name)) :
    (game.withAssets assets).soundKey name = game.soundKey name ∧
      assets.get? (game.soundKey name) = game.assets.get? (game.soundKey name) := by
  refine ⟨?_, ?_⟩
  · unfold Game.soundKey
    cases blip : namesBlip name with
    | false => rfl
    | true =>
      rw [soundLookups, blip, if_pos rfl] at h
      have same : (game.withAssets assets).assets.contains name = game.assets.contains name :=
        contains_of_agrees h.left
      rw [same]
      rfl
  · rw [← isAsset, ← isAsset]
    exact h.right _ (List.mem_singleton_self _)

theorem blip_of_agrees {speaker : Option String} (h : game.Agrees assets (blipLookups game speaker)) :
    blipFor assets game.config.audio speaker = blipFor game.assets game.config.audio speaker ∧
      assets.get? (blipFor game.assets game.config.audio speaker) =
        game.assets.get? (blipFor game.assets game.config.audio speaker) := by
  refine ⟨?_, h.right.asset⟩
  unfold blipFor
  unfold blipLookups at h
  cases own : speaker.bind game.config.audio.speakerBlips.get? with
  | none => rfl
  | some key =>
    rw [own] at h
    dsimp only
    rw [contains_of_agrees h.left]

end

variable {σ : Type} [Presentation σ] [Audio σ] {assets : AssetTable}

/-! ### Scenes -/

theorem animateCast_of_agrees {suffix : String} {talking : Bool} {p : String → Bool}
    {cast : List Actor} (h : game.Agrees assets (cast.filterMap (variant? suffix talking p)))
    (stage : σ) :
    Scene.animateCast assets suffix talking p cast stage =
      Scene.animateCast game.assets suffix talking p cast stage := by
  induction cast generalizing stage with
  | nil => rfl
  | cons actor cast ih =>
    have rest : game.Agrees assets (cast.filterMap (variant? suffix talking p)) := by
      intro lookup m
      obtain ⟨other, among, e⟩ := List.mem_filterMap.1 m
      exact h lookup (List.mem_filterMap.2 ⟨other, List.mem_cons_of_mem _ among, e⟩)
    have first : (if p actor.name then Scene.change? assets suffix talking actor else none) =
        if p actor.name then Scene.change? game.assets suffix talking actor else none := by
      cases chosen : p actor.name with
      | false => rfl
      | true =>
        unfold Scene.change?
        dsimp only
        by_cases same : talkTarget suffix actor.name talking = actor.name
        · rw [if_pos same, if_pos same]
        · have asked : variant? suffix talking p actor =
              some (.variant (talkTarget suffix actor.name talking)) := by
            simp [variant?, chosen, same]
          have answer := h _ (List.mem_filterMap.2 ⟨actor, List.mem_cons_self, asked⟩)
          rw [if_neg same, if_neg same]
          exact congrArg (fun found => (Option.map _ found : Option (String × String))) answer
    simp only [Scene.animateCast]
    rw [first]
    split
    · rw [ih rest]
    · rw [ih rest]

theorem talk_of_agrees {line : Line} {talking : Bool} {a : Scene σ}
    (h : game.Agrees assets (talkLookups game line talking a.cast)) :
    LineReveal.talk (game.withAssets assets) line talking a = LineReveal.talk game line talking a := by
  unfold LineReveal.talk
  unfold talkLookups at h
  cases speaker : line.speaker with
  | none => rfl
  | some name =>
    rw [speaker] at h
    have cast := animateCast_of_agrees h a.stage
    show (Scene.animate assets game.config name talking a).2 =
      (Scene.animate game.assets game.config name talking a).2
    rw [Scene.animate_eq, Scene.animate_eq, cast]

theorem voice_of_agrees {line : Line} {c : Char} {a : Scene σ}
    (h : game.Agrees assets
      (if c ≠ ' ' && !line.thought then blipLookups game line.speaker ++ talkLookups game line true a.cast
        else [])) :
    LineReveal.voice (game.withAssets assets) line c a = LineReveal.voice game line c a := by
  unfold LineReveal.voice
  split
  · rename_i voiced
    rw [if_pos voiced] at h
    obtain ⟨key, found⟩ := blip_of_agrees h.left
    have blip : LineReveal.playBlip (game.withAssets assets) line.speaker a =
        LineReveal.playBlip game line.speaker a := by
      unfold LineReveal.playBlip Game.withAssets
      dsimp only
      rw [key, found]
    have cast : (LineReveal.playBlip game line.speaker a).cast = a.cast := by
      unfold LineReveal.playBlip
      dsimp only
      split <;> rfl
    rw [blip]
    exact talk_of_agrees (cast ▸ h.right)
  · rfl

theorem finish_of_agrees {line : Line} {a : Scene σ}
    (h : game.Agrees assets (talkLookups game line false a.cast)) :
    LineReveal.finish (game.withAssets assets) line a = LineReveal.finish game line a := by
  unfold LineReveal.finish
  rw [talk_of_agrees h]

theorem tick_of_agrees {reveal : LineReveal} {a : Scene σ}
    (h : game.Agrees assets (lineLookups game reveal a.cast)) :
    LineReveal.tick (game.withAssets assets) reveal a = LineReveal.tick game reveal a := by
  unfold LineReveal.tick
  split
  · rename_i line n
    simp only [lineLookups] at h
    split
    · rename_i ended
      rw [ended] at h
      unfold LineReveal.complete
      rw [finish_of_agrees h]
    · rename_i c next
      rw [next] at h
      rw [voice_of_agrees (a := a.onStage (Presentation.pushChar · c)) h]
  · rfl

/-! ### Sessions -/

namespace Session

theorem showBackground_of_agrees {name : String} (h : game.Agrees assets (pictureLookups name))
    (s : Session σ) : s.showBackground (game.withAssets assets) name = s.showBackground game name := by
  unfold showBackground
  split
  · rfl
  · rename_i picture
    rw [pictureLookups, if_neg picture] at h
    have same : (game.withAssets assets).assets.get? name = game.assets.get? name := h.asset
    rw [same]

theorem showView_of_agrees {name : String} (h : game.Agrees assets (viewLookups game name))
    (s : Session σ) : s.showView (game.withAssets assets) name = s.showView game name := by
  have views : (game.withAssets assets).config.views.get? name = game.config.views.get? name := rfl
  unfold showView
  rw [views]
  unfold viewLookups at h
  cases found : game.config.views.get? name with
  | none => rfl
  | some preset =>
    rw [found] at h
    have both : game.Agrees assets
        (pictureLookups preset.background ++ preset.desk.toList.map .asset) :=
      fun lookup m => h lookup (List.mem_cons_of_mem _ m)
    have desk : preset.desk.bind assets.get? = preset.desk.bind game.assets.get? := by
      cases there : preset.desk with
      | none => rfl
      | some desk =>
        rw [there] at both
        exact both.right.asset
    dsimp only
    rw [showBackground_of_agrees both.left]
    show onStage (Presentation.setDesk · (preset.desk.bind assets.get?)) _ = _
    rw [desk]

theorem playSound_of_agrees {use : String → Lookup} {name : String}
    (isAsset : ∀ assets key, (use key).locator? assets = Table.get? assets key)
    (h : game.Agrees assets (soundLookups game use name)) (volume : Float32) (s : Session σ) :
    s.playSound (game.withAssets assets) name volume = s.playSound game name volume := by
  obtain ⟨key, found⟩ := sound_of_agrees name isAsset h
  have same : (game.withAssets assets).assets.get? (game.soundKey name) =
      game.assets.get? (game.soundKey name) := found
  unfold playSound
  dsimp only
  rw [key, same]

theorem playMusic_of_agrees {name : String} {s : Session σ}
    (h : game.Agrees assets (s.cueLookups game (.music .play (some name)))) :
    s.playMusic (game.withAssets assets) name = s.playMusic game name := by
  unfold playMusic
  dsimp only
  split
  · rfl
  · rename_i silent
    have other : s.heard? ≠ some (musicKey name) := by
      intro heard
      refine silent ?_
      unfold heard? at heard
      cases active : s.musicActive <;> simp_all
    have asked : s.cueLookups game (.music .play (some name)) = [.asset (musicKey name)] := if_neg other
    rw [asked] at h
    have same : (game.withAssets assets).assets.get? (musicKey name) =
        game.assets.get? (musicKey name) := h.asset
    rw [same]
    rfl

theorem stepCard_of_agrees {s : Session σ}
    (h : game.Agrees assets (s.card.elim [] (cardLookups game))) :
    s.stepCard (game.withAssets assets) = s.stepCard game := by
  unfold stepCard
  cases shown : s.card with
  | none => rfl
  | some card =>
    rw [shown] at h
    simp only [Option.elim_some, cardLookups] at h
    dsimp only
    split
    · rename_i next
      rw [next] at h
      have heard := fun volume (s : Session σ) => playSound_of_agrees (fun _ _ => rfl) h volume s
      have sameBlip : (game.withAssets assets).config = game.config := rfl
      rw [sameBlip, heard]
    · rfl
    · rfl

theorem moveCharacter_of_agrees {name : Option String} {action : CastAction} {s : Session σ}
    (h : game.Agrees assets (s.cueLookups game (.character name action))) :
    s.moveCharacter (game.withAssets assets) name action = s.moveCharacter game name action := by
  cases name with
  | none => cases action <;> rfl
  | some name =>
    cases action with
    | hide => rfl
    | _ =>
      have same : (game.withAssets assets).assets.get? name = game.assets.get? name := h.asset
      simp only [moveCharacter, same]

/-- **What a cue makes depends on what it looks up alone.** -/
theorem execute_of_agrees {cue : Cue} {s : Session σ}
    (h : game.Agrees assets (s.cueLookups game cue)) :
    s.execute (game.withAssets assets) cue = s.execute game cue := by
  cases cue with
  | background name => exact congrArg (Flow.goOn, ·) (showBackground_of_agrees h s)
  | view name => exact congrArg (Flow.goOn, ·) (showView_of_agrees h s)
  | music action name =>
    cases action with
    | play =>
      cases name with
      | none => rfl
      | some name => exact congrArg (Flow.goOn, ·) (playMusic_of_agrees h)
    | _ => rfl
  | sound name => exact congrArg (Flow.goOn, ·) (playSound_of_agrees (fun _ _ => rfl) h _ s)
  | character name action => exact congrArg (Flow.goOn, ·) (moveCharacter_of_agrees h)
  | video name =>
    have same : (game.withAssets assets).assets.get? name = game.assets.get? name := h.asset
    simp only [execute, playVideo, same]
    rfl
  | introCard lines =>
    refine congrArg (Flow.hold, ·) ?_
    unfold beginCard
    exact stepCard_of_agrees h
  | _ => rfl

theorem fire_of_agrees {kind : TimerKind} {s : Session σ}
    (h : game.Agrees assets (s.timerLookups game kind)) :
    s.fire (game.withAssets assets) kind = s.fire game kind := by
  cases kind with
  | typeTick =>
    have ticked := tick_of_agrees h
    simp only [fire, typeTick, ticked]
    rfl
  | cardTick => exact congrArg Turn.rests (stepCard_of_agrees h)
  | frame =>
    simp only [fire, nextFrame]
    cases shown : s.flipbook with
    | none => rfl
    | some book =>
      obtain ⟨frames, interval, keepLast⟩ := book
      cases frames with
      | nil => rfl
      | cons frame frames =>
        simp only [timerLookups, shown] at h
        have same : (game.withAssets assets).assets.get? frame = game.assets.get? frame := h.asset
        simp only [same]
  | advance | videoPoll | videoCheck => rfl

end Session

/-- what a deed makes of the session that it finds -/
def Deed.leadsTo (game : Game) (deed : Deed) (s : Session σ) : Turn σ :=
  match deed with
  | .takes place => .goesOn { s with position := place + 1 }
  | .does cue => .ofFlow (s.execute game cue)
  | .fires timer => s.fire game timer.kind

theorem leadsTo_of_agrees {deed : Deed} {s : Session σ}
    (h : game.Agrees assets (lookups game (deed, s))) :
    deed.leadsTo (game.withAssets assets) s = deed.leadsTo game s := by
  cases deed with
  | takes place => rfl
  | does cue => exact congrArg Turn.ofFlow (execute_of_agrees h)
  | fires timer => exact fire_of_agrees h

end VisualNovel
