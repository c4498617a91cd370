import VisualNovel.Config.Basic
import VisualNovel.Text.Blank
import VisualNovel.Text.Fragment
import VisualNovel.Text.LowerCase

/-!
# Which sprites belong to a speaker

A sprite belongs to a speaker if its name holds the speaker's name, or a fragment that the aliases give
to this speaker. Case does not matter. A speaker whose name is blank has no sprites.

* `keywords`          the texts to look for, in lower case;
* `belongs`           whether a sprite of this name belongs to the speaker;
* `matchingIndices`   the places of the names that belong;
* `talkTarget`        the name of the talking or of the idle sprite.
-/

namespace VisualNovel

def lowerCase (s : String) : List Char := Text.lower s.toList

def keywords (speaker : String) (aliases : List SpeakerAlias) : List (List Char) :=
  match Text.lower (Text.trim speaker.toList) with
  | [] => []
  | name =>
    name :: (aliases.filter fun a => lowerCase a.speaker == name).flatMap fun a =>
      a.fragments.map lowerCase

def belongs (keywords : List (List Char)) (name : String) : Bool :=
  let name := lowerCase name
  keywords.any (Text.holds · name)

def matchingIndices (speaker : String) (names : List String) (aliases : List SpeakerAlias) : List Nat :=
  (names.zipIdx.filter fun e => belongs (keywords speaker aliases) e.1).map Prod.snd

/-- a name without the suffix, if it has it -/
def baseName (suffix name : String) : String :=
  match Text.dropEnd? suffix.toList name.toList with
  | some base => String.ofList base
  | none => name

/-- the name of the sprite to be seen while the speaker talks, or while not -/
def talkTarget (suffix name : String) (talking : Bool) : String :=
  if talking then baseName suffix name ++ suffix else baseName suffix name

end VisualNovel
