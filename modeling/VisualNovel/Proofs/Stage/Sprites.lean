import VisualNovel.Proofs.Stage.Staged

/-!
# The sprites on stage are those of the cast

The scene knows the names of its characters, the stage their sprites, and every step changes both.
They agree at every moment: the handles on stage are those of the characters, in the order in which
these came, and each sprite is the one that the asset table gives to the name.

* `Game.switch?`           the sprite that an actor changes to as a speaker starts or stops talking;
* `talk_eq`                what becomes of the characters and of their sprites;
* `get?_switchSprites`     the sprites on a recording stage after it;
* `Scene.Agrees`           the cast of a scene and the sprites on its stage agree;
* `Staged.agrees`          every step keeps it so;
* `sprites_show_the_cast`  what this means for a session that operations bring about.
-/

set_option linter.unusedSectionVars false

namespace VisualNovel

open Session Presentation

/-! ## Speakers -/

/-- the name and locator of the sprite that an actor changes to as the speaker of a line starts or
stops talking, if it changes -/
def Game.switch? (game : Game) (line : Line) (talking : Bool) (a : Actor) : Option (String × String) :=
  match line.speaker with
  | some speaker =>
    if belongs (keywords speaker game.config.aliases) a.name then
      Scene.change? game.assets game.config.talkSuffix talking a
    else none
  | none => none

def Game.switched (game : Game) (line : Line) (talking : Bool) (a : Actor) : Actor :=
  match game.switch? line talking a with
  | some (name, _) => { a with name }
  | none => a

def Game.switchSprites {σ : Type} [Presentation σ] (game : Game) (line : Line) (talking : Bool) :
    List Actor → σ → σ
  | [], stage => stage
  | a :: cast, stage =>
    game.switchSprites line talking cast <|
      match game.switch? line talking a with
      | some (_, locator) => replaceSprite stage a.handle locator
      | none => stage

section
variable {game : Game} {line : Line} {talking : Bool}

theorem switch?_eq_some_iff {a : Actor} {name locator : String} :
    game.switch? line talking a = some (name, locator) ↔
      ∃ speaker, line.speaker = some speaker ∧
        belongs (keywords speaker game.config.aliases) a.name = true ∧
        talkTarget game.config.talkSuffix a.name talking = name ∧ name ≠ a.name ∧
        game.assets.get? name = some locator := by
  unfold Game.switch?
  cases line.speaker with
  | none => simp
  | some speaker =>
    simp only [Option.some.injEq, exists_eq_left']
    split
    · rename_i speaks
      simp only [Scene.change?, speaks, true_and]
      constructor
      · intro h
        split at h
        · cases h
        · rename_i other
          obtain ⟨_, found, e⟩ := Option.map_eq_some_iff.1 h
          cases e
          exact ⟨rfl, other, found⟩
      · rintro ⟨rfl, other, found⟩
        rw [if_neg other, found, Option.map_some]
    · rename_i silent
      simp [silent]

@[simp] theorem switched_handle (game : Game) (line : Line) (talking : Bool) (a : Actor) :
    (game.switched line talking a).handle = a.handle := by
  unfold Game.switched
  split <;> rfl

theorem switched_of_some {a : Actor} {name locator : String}
    (h : game.switch? line talking a = some (name, locator)) :
    game.switched line talking a = { a with name } := by
  rw [Game.switched, h]

theorem switched_of_none {a : Actor} (h : game.switch? line talking a = none) :
    game.switched line talking a = a := by
  rw [Game.switched, h]

theorem animateCast_eq {σ : Type} [Presentation σ] (game : Game) (talking : Bool) {speaker : String}
    (said : line.speaker = some speaker) (cast : List Actor) (stage : σ) :
    ∃ n, Scene.animateCast game.assets game.config.talkSuffix talking
        (belongs (keywords speaker game.config.aliases)) cast stage =
      (n, cast.map (game.switched line talking), game.switchSprites line talking cast stage) := by
  induction cast generalizing stage with
  | nil => exact ⟨0, rfl⟩
  | cons a cast ih =>
    have here : (if belongs (keywords speaker game.config.aliases) a.name then
        Scene.change? game.assets game.config.talkSuffix talking a else none) =
        game.switch? line talking a := by
      rw [Game.switch?, said]
    simp only [Scene.animateCast, Game.switchSprites, List.map_cons, here]
    cases change : game.switch? line talking a with
    | none =>
      obtain ⟨n, rest⟩ := ih stage
      rw [switched_of_none change]
      simp only [rest]
      exact ⟨n, rfl⟩
    | some target =>
      obtain ⟨n, rest⟩ := ih (replaceSprite stage a.handle target.2)
      rw [switched_of_some change]
      simp only [rest]
      exact ⟨n + 1, rfl⟩

theorem talk_eq {σ : Type} [Presentation σ] (game : Game) (line : Line) (talking : Bool)
    (s : Scene σ) :
    LineReveal.talk game line talking s =
      { s with
        cast := s.cast.map (game.switched line talking)
        stage := game.switchSprites line talking s.cast s.stage } := by
  unfold LineReveal.talk
  cases said : line.speaker with
  | some speaker =>
    obtain ⟨n, both⟩ := animateCast_eq game talking said s.cast s.stage
    simp only [Scene.animate_eq, both]
  | none =>
    have still (a : Actor) : game.switch? line talking a = none := by rw [Game.switch?, said]
    have cast : s.cast.map (game.switched line talking) = s.cast := by
      rw [List.map_congr_left fun a _ => switched_of_none (still a), List.map_id']
    have stage : game.switchSprites line talking s.cast s.stage = s.stage := by
      induction s.cast with
      | nil => rfl
      | cons a cast ih =>
        rw [Game.switchSprites, still a]
        exact ih
    rw [cast, stage]

/-! ## On a recording stage -/

/-- replacing sprites changes nothing but the sprites and the log -/
theorem switchSprites_eq (game : Game) (line : Line) (talking : Bool) (cast : List Actor)
    (p : RecordingStage) :
    ∃ sprites calls, game.switchSprites line talking cast p =
      { p with screen := { p.screen with sprites := sprites, calls := calls } } := by
  induction cast generalizing p with
  | nil => exact ⟨_, _, rfl⟩
  | cons a cast ih =>
    rw [Game.switchSprites]
    split
    · exact ih _
    · exact ih _

def Game.switchCalls (game : Game) (line : Line) (talking : Bool) (cast : List Actor) : List Call :=
  cast.filterMap fun a =>
    (game.switch? line talking a).map fun target => .replaceSprite a.handle target.2

theorem calls_switchSprites (game : Game) (line : Line) (talking : Bool) (cast : List Actor)
    (p : RecordingStage) :
    (game.switchSprites line talking cast p).screen.calls.toList =
      p.screen.calls.toList ++ game.switchCalls line talking cast := by
  induction cast generalizing p with
  | nil => exact (List.append_nil _).symm
  | cons a cast ih =>
    rw [Game.switchSprites, ih]
    unfold Game.switchCalls
    rw [List.filterMap_cons]
    cases game.switch? line talking a with
    | none => rfl
    | some target =>
      show (p.screen.calls.push _).toList ++ _ = _
      rw [Array.toList_push, List.append_assoc]
      rfl

theorem get?_switchSprites_of_not_mem {cast : List Actor} {k : Nat}
    (others : ∀ a ∈ cast, a.handle.id ≠ k) (p : RecordingStage) :
    (game.switchSprites line talking cast p).screen.sprites.get? k = p.screen.sprites.get? k := by
  induction cast generalizing p with
  | nil => rfl
  | cons a cast ih =>
    rw [List.forall_mem_cons] at others
    rw [Game.switchSprites, ih others.2]
    split
    · exact Table.get?_insert_of_ne _ _ (Ne.symm others.1)
    · rfl

theorem get?_switchSprites {cast : List Actor}
    (increasing : cast.Pairwise fun a b => a.handle.id < b.handle.id) {a : Actor} (m : a ∈ cast)
    (p : RecordingStage) :
    (game.switchSprites line talking cast p).screen.sprites.get? a.handle.id =
      match game.switch? line talking a with
      | some (_, locator) => some locator
      | none => p.screen.sprites.get? a.handle.id := by
  induction cast generalizing p with
  | nil => cases m
  | cons b cast ih =>
    obtain ⟨first, increasing⟩ := List.pairwise_cons.1 increasing
    rw [Game.switchSprites]
    rcases List.mem_cons.1 m with rfl | m
    · rw [get?_switchSprites_of_not_mem fun b m => Nat.ne_of_gt (first b m)]
      split
      · exact Table.get?_insert_self _ _ _
      · rfl
    · have ne : a.handle.id ≠ b.handle.id := Nat.ne_of_gt (first a m)
      rw [ih increasing m]
      cases game.switch? line talking a with
      | some target => rfl
      | none =>
        dsimp only
        split
        · exact Table.get?_insert_of_ne _ _ ne
        · rfl

end

/-- the scene that a character enters while the sprites are not switched off -/
theorem Scene.enter_of_seen {a : Scene RecordingStage} (seen : a.spritesHidden = false)
    (name locator : String) :
    a.enter name locator = { a with
      stage := (addSprite a.stage locator).2
      cast := a.cast ++ [⟨name, ⟨a.stage.screen.lastHandle + 1⟩⟩] } := by
  simp only [Scene.enter, Scene.unhide, seen, Bool.false_eq_true, if_false]
  rfl

/-! ## Agreement -/

/-- the handles of the cast are those of the sprites on stage, older ones first, and each sprite is the
one of its actor's name -/
structure Scene.Agrees (assets : AssetTable) (s : Scene RecordingStage) : Prop where
  increasing : s.cast.Pairwise fun a b => a.handle.id < b.handle.id
  known : ∀ a ∈ s.cast, a.handle.id ≤ s.stage.screen.lastHandle
  shown : ∀ a ∈ s.cast, ∃ locator, assets.get? a.name = some locator ∧
    s.stage.screen.sprites.get? a.handle.id = some locator
  only : ∀ k, (∀ a ∈ s.cast, a.handle.id ≠ k) → s.stage.screen.sprites.get? k = none

namespace Scene.Agrees

variable {assets : AssetTable} {a b : Scene RecordingStage}

theorem of_empty {stage : RecordingStage} (empty : stage.screen.sprites = .empty)
    (hidden : Bool) : Agrees assets ⟨stage, [], hidden⟩ := by
  refine ⟨.nil, nofun, nofun, fun k _ => ?_⟩
  rw [empty]
  rfl

theorem of_eq (h : a.Agrees assets) (cast : b.cast = a.cast)
    (sprites : b.stage.screen.sprites = a.stage.screen.sprites)
    (lastHandle : b.stage.screen.lastHandle = a.stage.screen.lastHandle) : b.Agrees assets := by
  refine ⟨?_, ?_, ?_, ?_⟩
  · rw [cast]
    exact h.increasing
  · rw [cast, lastHandle]
    exact h.known
  · rw [cast, sprites]
    exact h.shown
  · rw [cast, sprites]
    exact h.only

theorem enter {name locator : String} (h : a.Agrees assets)
    (found : assets.get? name = some locator) (seen : a.spritesHidden = false) :
    (a.enter name locator).Agrees assets := by
  rw [Scene.enter_of_seen seen]
  have sprites (k : Nat) : (addSprite a.stage locator).2.screen.sprites.get? k =
      if k = a.stage.screen.lastHandle + 1 then some locator else a.stage.screen.sprites.get? k :=
    Table.get?_insert _ _ _ _
  have below : ∀ x ∈ a.cast, x.handle.id ≠ a.stage.screen.lastHandle + 1 := by
    intro x m
    have := h.known x m
    omega
  refine ⟨?_, ?_, ?_, ?_⟩
  · rw [List.pairwise_append]
    refine ⟨h.increasing, List.pairwise_singleton _ _, fun x m y my => ?_⟩
    rw [List.mem_singleton.1 my]
    exact Nat.lt_succ_of_le (h.known x m)
  · intro x m
    show x.handle.id ≤ a.stage.screen.lastHandle + 1
    rcases List.mem_append.1 m with m | m
    · exact Nat.le_succ_of_le (h.known x m)
    · obtain rfl := List.mem_singleton.1 m
      exact Nat.le_refl _
  · intro x m
    dsimp only
    rw [sprites]
    rcases List.mem_append.1 m with m | m
    · rw [if_neg (below x m)]
      exact h.shown x m
    · rw [List.mem_singleton.1 m, if_pos rfl]
      exact ⟨locator, found, rfl⟩
  · intro k others
    dsimp only
    rw [sprites, if_neg (Ne.symm (others _ (List.mem_append_right _ (List.mem_singleton_self _))))]
    exact h.only k fun x m => others x (List.mem_append_left _ m)

theorem leave {actor : Actor} {before after : List Actor} (h : a.Agrees assets)
    (split : a.cast = before ++ actor :: after) :
    Agrees assets
      { a with stage := removeSprite a.stage actor.handle, cast := before ++ after } := by
  obtain ⟨increasing, known, shown, only⟩ := h
  rw [split] at increasing known shown only
  have rest : (before ++ after).Sublist (before ++ actor :: after) :=
    (List.sublist_cons_self actor after).append_left before
  have ne : ∀ x ∈ before ++ after, x.handle.id ≠ actor.handle.id := by
    intro x m
    have apart := List.pairwise_append.1 increasing
    rcases List.mem_append.1 m with m | m
    · exact Nat.ne_of_lt (apart.2.2 x m actor List.mem_cons_self)
    · exact Nat.ne_of_gt ((List.pairwise_cons.1 apart.2.1).1 x m)
  have sprites (k : Nat) : (removeSprite a.stage actor.handle).screen.sprites.get? k =
      if k = actor.handle.id then none else a.stage.screen.sprites.get? k :=
    Table.get?_erase _ _ _
  refine ⟨increasing.sublist rest, fun x m => known x (rest.subset m), fun x m => ?_, fun k others => ?_⟩
  · dsimp only
    rw [sprites, if_neg (ne x m)]
    exact shown x (rest.subset m)
  · dsimp only
    rw [sprites]
    split
    · rfl
    · rename_i other
      refine only k fun x m => ?_
      rcases List.mem_append.1 m with m | m
      · exact others x (List.mem_append_left _ m)
      · rcases List.mem_cons.1 m with rfl | m
        · exact Ne.symm other
        · exact others x (List.mem_append_right _ m)

theorem talk {game : Game} (h : a.Agrees game.assets) (line : Line) (talking : Bool) :
    (LineReveal.talk game line talking a).Agrees game.assets := by
  obtain ⟨sprites, calls, same⟩ := switchSprites_eq game line talking a.cast a.stage
  rw [talk_eq]
  refine ⟨?_, ?_, ?_, ?_⟩
  · rw [List.pairwise_map]
    simp only [switched_handle]
    exact h.increasing
  · intro x m
    obtain ⟨actor, present, rfl⟩ := List.mem_map.1 m
    dsimp only
    rw [switched_handle, same]
    exact h.known actor present
  · intro x m
    obtain ⟨actor, present, rfl⟩ := List.mem_map.1 m
    dsimp only
    rw [switched_handle, get?_switchSprites h.increasing present]
    cases change : game.switch? line talking actor with
    | some target =>
      obtain ⟨name, locator⟩ := target
      obtain ⟨-, -, -, -, -, found⟩ := switch?_eq_some_iff.1 change
      rw [switched_of_some change]
      exact ⟨locator, found, rfl⟩
    | none =>
      rw [switched_of_none change]
      exact h.shown actor present
  · intro k others
    have others : ∀ actor ∈ a.cast, actor.handle.id ≠ k := by
      intro actor m
      rw [← switched_handle game line talking actor]
      exact others _ (List.mem_map_of_mem m)
    dsimp only
    rw [get?_switchSprites_of_not_mem others]
    exact h.only k others

theorem entries_eq (h : a.Agrees assets) :
    a.stage.screen.sprites.entries =
      a.cast.map fun actor => (actor.handle.id, (assets.get? actor.name).getD "") := by
  refine Table.increasing_ext a.stage.screen.sprites.sorted ?_ fun e => ?_
  · rw [Increasing, List.pairwise_map]
    exact h.increasing
  obtain ⟨k, locator⟩ := e
  rw [← Table.get?_iff, List.mem_map]
  constructor
  · intro present
    obtain ⟨actor, m, rfl⟩ : ∃ actor ∈ a.cast, actor.handle.id = k := by
      by_contra none
      rw [h.only k fun actor m e => none ⟨actor, m, e⟩] at present
      cases present
    obtain ⟨other, found, displayed⟩ := h.shown actor m
    rw [present, Option.some.injEq] at displayed
    subst displayed
    exact ⟨actor, m, by rw [found, Option.getD_some]⟩
  · rintro ⟨actor, m, e⟩
    cases e
    obtain ⟨locator, found, displayed⟩ := h.shown actor m
    rw [found, Option.getD_some]
    exact displayed

end Scene.Agrees

/-! ## Playback -/

theorem Staged.agrees {game : Game} {stage : RecordingStage} {names : List String} {r : LineReveal}
    {a : Scene RecordingStage} (empty : stage.screen.sprites = .empty)
    (h : Staged game stage names r a) : a.Agrees game.assets := by
  induction h with
  | new => exact .of_empty empty false
  | quiet cast quiet _ ih => exact ih.of_eq cast quiet.sprites quiet.lastHandle
  | cleared => exact .of_empty rfl _
  | entered found seen _ ih => exact ih.enter found seen
  | left split _ ih => exact ih.leave split
  | begun _ _ _ _ ih | pushed _ _ ih | filled _ ih => exact ih.of_eq rfl rfl rfl
  | talked _ ih => exact ih.talk _ true
  | completed _ _ ih => exact ih.talk _ false

/-- **The sprites on stage are those of the cast.** Let a session play on a recording stage that is
empty at first, and let its host do anything but change sprites or text by itself. Then the handles of
the characters are strictly increasing, the sprites on stage have just these handles, and the sprite of
each character is the one that the asset table gives to its present name; so the locators on stage, in
the order of their handles, are those of the characters. -/
theorem sprites_show_the_cast (game : Game) {stage : RecordingStage}
    (empty : stage.screen.sprites = .empty) {deeds : List Deed} {s : Session RecordingStage}
    (h : ContinuesWithin Operation.Gentle game (.ofStage stage) deeds s) :
    (s.scene.cast.map fun a => a.handle.id).Pairwise (· < ·) ∧
    s.stage.screen.sprites.keys = s.scene.cast.map (fun a => a.handle.id) ∧
    (∀ a ∈ s.scene.cast, ∃ locator, game.assets.get? a.name = some locator ∧
      s.stage.screen.sprites.get? a.handle.id = some locator) ∧
    s.stage.screen.spriteLocators.map some =
      s.scene.cast.map fun a => game.assets.get? a.name := by
  have agrees : s.scene.Agrees game.assets := h.staged.agrees empty
  have entries : s.stage.screen.sprites.entries = _ := agrees.entries_eq
  refine ⟨List.pairwise_map.2 agrees.increasing, ?_, agrees.shown, ?_⟩
  · rw [Table.keys, entries, List.map_map]
    rfl
  · rw [Screen.spriteLocators, Table.values, entries, List.map_map, List.map_map]
    refine List.map_congr_left fun a m => ?_
    obtain ⟨locator, found, -⟩ := agrees.shown a m
    show some ((game.assets.get? a.name).getD "") = game.assets.get? a.name
    rw [found, Option.getD_some]

/-- of two characters that enter, the first leaves while the second one talks -/
theorem second_character_talks :
    let enters (name : String) : Event := .single (.character (some name) .add)
    let leaves : Cue := .character (some "Ann") .hide
    let line : Cue := .dialogue ⟨"Hi", some "Bob", false, false⟩
    let game : Game :=
      { script := .ofEvents [enters "Ann", enters "Bob", .together [line, leaves]]
        assets := .ofList [("Ann", "a.png"), ("Bob", "b.png"), ("Bob_Talk", "t.png")] }
    ∃ deeds, ∃ s : Session RecordingStage,
      ContinuesWithin Operation.Gentle game (.ofStage {}) deeds s ∧
        s.scene.cast.map Actor.name = ["Bob_Talk"] ∧ s.stage.screen.sprites.keys = [2] ∧
        s.stage.screen.spriteLocators.map some =
          s.scene.cast.map fun a => game.assets.get? a.name := by
  intro enters leaves line game
  have plays : ∃ deeds, ∃ s : Session RecordingStage,
      ContinuesWithin Operation.Gentle game (.ofStage {}) deeds s ∧
        s.scene.cast.map Actor.name = ["Bob_Talk"] ∧ s.scene.cast.map (fun a => a.handle.id) = [2] := by
    refine ⟨_, _, .operation (.runUntil 40 10) trivial (.operation .start trivial .refl rfl) rfl, ?_⟩
    decide +kernel
  obtain ⟨deeds, s, host, names, handles⟩ := plays
  obtain ⟨-, keys, -, locators⟩ := sprites_show_the_cast game rfl host
  exact ⟨deeds, s, host, names, keys.trans handles, locators⟩

end VisualNovel
