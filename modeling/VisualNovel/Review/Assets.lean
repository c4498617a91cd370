import VisualNovel.Cast.Speaker
import VisualNovel.Game
import VisualNovel.Review.Issue

/-!
# Names without an asset

* `assetUses`     the names that a cue looks up, and what for;
* `assetIssues`   the names that are not in the asset table, then the views without a preset, then the
                  default blip if there are lines to speak.
-/

namespace VisualNovel.Review

def backgroundUse (use : AssetUse) (name : String) : List (AssetUse × String) :=
  if isBlack name then [] else [(use, name)]

def assetUses (game : Game) (talking : Bool) : Event → List (AssetUse × String)
  | .single (.background name) => backgroundUse .background name
  | .single (.view name) =>
    match game.config.views.get? name with
    | some preset => backgroundUse .viewBackground preset.background ++ preset.desk.toList.map (.viewDesk, ·)
    | none => []
  | .single (.music .play (some name)) => [(.music, musicKey name)]
  | .single (.sound name) =>
    if namesBlip name && game.assets.contains game.config.audio.defaultBlip then [] else [(.sound, name)]
  | .single (.character (some name) action) =>
    if action = .hide then []
    else
      (.character, name) ::
        (if talking then [(.talkingSprite, talkTarget game.config.talkSuffix name true)] else [])
  | .single (.video name) => [(.video, name)]
  | .single (.sequence frames _ _) => frames.map (.frame, ·)
  | _ => []

def missingIssues (game : Game) (talking : Bool) : List Issue :=
  game.script.walk.flatMap fun (place, e) =>
    ((assetUses game talking e).filter fun (_, name) => !game.assets.contains name).map fun (use, name) =>
      ⟨.missingAsset use name, some place⟩

def unknownView? (game : Game) : Event → Option Finding
  | .single (.view name) => if game.config.views.contains name then none else some (.unknownView name)
  | _ => none

def viewIssues (game : Game) : List Issue :=
  game.script.walk.filterMap fun (place, e) => (unknownView? game e).map (⟨·, some place⟩)

def isDialogue : Event → Bool
  | .single (.dialogue _) => true
  | _ => false

def blipIssues (game : Game) : List Issue :=
  let blip := game.config.audio.defaultBlip
  if (game.script.walk.any fun (_, e) => isDialogue e) && !game.assets.contains blip then
    [⟨.missingBlip blip, none⟩]
  else []

def assetIssues (game : Game) (talking : Bool) : List Issue :=
  missingIssues game talking ++ viewIssues game ++ blipIssues game

end VisualNovel.Review
