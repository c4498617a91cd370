import VisualNovel.Asset.Table
import VisualNovel.Cast.Speaker
import VisualNovel.Stage.Basic

/-!
# The characters on stage

A scene is a stage with the characters on it, in the order in which they came. The stage knows their
sprites by handles, the scene knows their names.

* `Scene.clear`, `Scene.enter`, `Scene.leave`   characters go and come;
* `Scene.animate`                               the sprites of a speaker start or stop talking;
* `Scene.animate_eq`                            it goes through the cast, actor after actor;
* `Scene.handles_animateCast`                    talking does not change who is on stage.
-/

namespace VisualNovel

open Presentation

/-- a character on stage, under the name of the sprite it shows -/
structure Actor where
  name : String
  handle : Handle
deriving DecidableEq

structure Scene (σ : Type) where
  stage : σ
  cast : List Actor := []
  /-- a sequence has switched the sprites off -/
  spritesHidden : Bool := false

namespace Scene

variable {σ : Type} [Presentation σ]

/-- does something to the stage alone -/
def onStage (f : σ → σ) (s : Scene σ) : Scene σ := { s with stage := f s.stage }

def clear (s : Scene σ) : Scene σ := { s with stage := clearSprites s.stage, cast := [] }

/-- switches the sprites on again, if they are off -/
def unhide (s : Scene σ) : Scene σ :=
  if s.spritesHidden then { s with stage := setSpritesVisible s.stage true, spritesHidden := false } else s

def enter (name locator : String) (s : Scene σ) : Scene σ :=
  let s := s.unhide
  let (handle, stage) := addSprite s.stage locator
  { s with stage, cast := s.cast ++ [⟨name, handle⟩] }

/-- an actor answers to the name it shows, and to that name without the suffix of talking sprites -/
def answersTo (suffix name : String) (a : Actor) : Bool :=
  a.name == name || talkTarget suffix a.name false == name

/-- the first actor that answers to the name leaves -/
def leave (suffix name : String) (s : Scene σ) : Scene σ :=
  match s.cast.find? (answersTo suffix name) with
  | some a => { s with stage := removeSprite s.stage a.handle, cast := s.cast.eraseP (answersTo suffix name) }
  | none => s

/-- the name an actor changes to and its locator, if there is such a sprite and it is another one -/
def change? (assets : AssetTable) (suffix : String) (talking : Bool) (a : Actor) :
    Option (String × String) :=
  let target := talkTarget suffix a.name talking
  if target = a.name then none else (assets.get? target).map (target, ·)

/-- the actor at `place` starts or stops talking; counts it if it changes -/
def animateAt (assets : AssetTable) (suffix : String) (talking : Bool) (done : Nat × Scene σ)
    (place : Nat) : Nat × Scene σ :=
  let (n, s) := done
  match s.cast[place]? with
  | some a =>
    match change? assets suffix talking a with
    | some (name, locator) =>
      (n + 1, { s with
        stage := replaceSprite s.stage a.handle locator
        cast := s.cast.set place { a with name } })
    | none => done
  | none => done

/-- the actors of the speaker start or stop talking; counts those that change -/
def animate (assets : AssetTable) (config : PlayerConfig) (speaker : String) (talking : Bool)
    (s : Scene σ) : Nat × Scene σ :=
  (matchingIndices speaker (s.cast.map Actor.name) config.aliases).foldl
    (animateAt assets config.talkSuffix talking) (0, s)

/-! ## Actor after actor -/

/-- the actors chosen by `p` start or stop talking; counts those that change -/
def animateCast (assets : AssetTable) (suffix : String) (talking : Bool) (p : String → Bool) :
    List Actor → σ → Nat × List Actor × σ
  | [], stage => (0, [], stage)
  | a :: cast, stage =>
    match if p a.name then change? assets suffix talking a else none with
    | some (name, locator) =>
      let (n, cast, stage) := animateCast assets suffix talking p cast (replaceSprite stage a.handle locator)
      (n + 1, { a with name } :: cast, stage)
    | none =>
      let (n, cast, stage) := animateCast assets suffix talking p cast stage
      (n, a :: cast, stage)

theorem foldl_animateAt (assets : AssetTable) (suffix : String) (talking : Bool) (p : String → Bool)
    (n : Nat) (before cast : List Actor) (stage : σ) (hidden : Bool) :
    ((((cast.map Actor.name).zipIdx before.length).filter fun e => p e.1).map Prod.snd).foldl
        (animateAt assets suffix talking) (n, ⟨stage, before ++ cast, hidden⟩) =
      (n + (animateCast assets suffix talking p cast stage).1,
        ⟨(animateCast assets suffix talking p cast stage).2.2,
          before ++ (animateCast assets suffix talking p cast stage).2.1, hidden⟩) := by
  induction cast generalizing n before stage with
  | nil => rfl
  | cons a cast ih =>
    have here : (before ++ a :: cast)[before.length]? = some a := by simp
    -- whoever stands at this place afterwards, the rest of the cast is gone through behind it
    have passed (n : Nat) (b : Actor) (stage : σ) := ih n (before ++ [b]) stage
    simp only [List.length_append, List.length_singleton, List.append_assoc,
      List.singleton_append] at passed
    simp only [List.map_cons, List.zipIdx_cons, List.filter_cons, animateCast]
    cases chosen : p a.name with
    | false => simpa using passed n a stage
    | true =>
      simp only [if_true, List.map_cons, List.foldl_cons, animateAt, here]
      cases change : change? assets suffix talking a with
      | none => simpa [change] using passed n a stage
      | some target =>
        have set (b : Actor) : (before ++ a :: cast).set before.length b = before ++ b :: cast := by
          simp
        simp only [set, passed, Nat.add_assoc, Nat.add_comm 1]

/-- actor after actor, or place after place: the same actors change -/
theorem animate_eq (assets : AssetTable) (config : PlayerConfig) (speaker : String) (talking : Bool)
    (s : Scene σ) :
    s.animate assets config speaker talking =
      let changed := animateCast assets config.talkSuffix talking
        (belongs (keywords speaker config.aliases)) s.cast s.stage
      (changed.1, { s with cast := changed.2.1, stage := changed.2.2 }) := by
  have all := foldl_animateAt assets config.talkSuffix talking
    (belongs (keywords speaker config.aliases)) 0 [] s.cast s.stage s.spritesHidden
  rw [Nat.zero_add] at all
  exact all

theorem handles_animateCast (assets : AssetTable) (suffix : String) (talking : Bool) (p : String → Bool)
    (cast : List Actor) (stage : σ) :
    (animateCast assets suffix talking p cast stage).2.1.map Actor.handle = cast.map Actor.handle := by
  induction cast generalizing stage with
  | nil => rfl
  | cons a cast ih =>
    simp only [animateCast]
    split <;> simp [ih]

end Scene

end VisualNovel
